import ClassForge.Proofs.Device.Expansion
import Mathlib.Data.List.Nodup

/-!
# Catalogs that hold the same classes

A catalog is filled class by class. Where no two of the classes have one name it does not matter in
which order: what is known of a class is the same, and so are the plans, the expansions and the
routines that are read off.
-/

namespace ClassForge.Device

open C ClassForge.Class

namespace Catalog

/-- Two catalogs hold the same classes and know the same object structs of them. -/
structure Agrees (cat cat' : Catalog) : Prop where
  enabled : ∀ cls, cat.isEnabled cls = cat'.isEnabled cls
  layout : ∀ cls, cat.layout? cls = cat'.layout? cls

/-! ## Filling a catalog -/

theorem isEnabled_foldl {cat : Catalog} {classes : List Class} {cls : String} :
    (classes.foldl enableClass cat).isEnabled cls = true ↔
      cat.isEnabled cls = true ∨ ∃ c ∈ classes, c.name = cls := by
  induction classes generalizing cat with
  | nil => simp
  | cons c cs ih =>
    have hstep : (cat.enableClass c).isEnabled cls = true ↔
        cat.isEnabled cls = true ∨ c.name = cls := by
      simp only [isEnabled, enableClass, enable, List.contains_iff_mem, List.mem_insert_iff]
      rw [or_comm, eq_comm]
    rw [List.foldl_cons, ih, hstep, or_assoc, List.exists_mem_cons_iff]

theorem layout?_foldl {cat : Catalog} {classes : List Class} (hnames : (classes.map (·.name)).Nodup)
    {cls : String} {s : StructType} :
    (classes.foldl enableClass cat).layout? cls = some s ↔
      (∃ c ∈ classes, c.name = cls ∧ c.object = s) ∨
        cls ∉ classes.map (·.name) ∧ cat.layout? cls = some s := by
  induction classes generalizing cat with
  | nil => simp
  | cons c cs ih =>
    obtain ⟨hc, hnames⟩ := List.nodup_cons.1 (List.map_cons ▸ hnames)
    have hstep : (cat.enableClass c).layout? cls
        = if cls = c.name then some c.object else cat.layout? cls := by
      simp only [layout?, enableClass, enable, List.lookup_cons]
      split <;> simp_all
    rw [List.foldl_cons, ih hnames, hstep, List.exists_mem_cons_iff, List.map_cons, List.mem_cons,
      not_or]
    by_cases hcls : cls = c.name
    · -- the name is that of the first class, and of no other
      subst hcls
      have hnone : ¬ ∃ x ∈ cs, x.name = c.name ∧ x.object = s :=
        fun ⟨x, hx, hname, _⟩ => hc (List.mem_map.2 ⟨x, hx, hname⟩)
      simp [hnone, hc]
    · simp [hcls, Ne.symm hcls]

/-- Classes of different names fill a catalog in any order. -/
theorem agrees_foldl {classes classes' : List Class} (hperm : classes.Perm classes')
    (hnames : (classes.map (·.name)).Nodup) :
    Agrees (classes.foldl enableClass {}) (classes'.foldl enableClass {}) where
  enabled cls := by
    rw [Bool.eq_iff_iff, isEnabled_foldl, isEnabled_foldl]
    simp only [hperm.mem_iff]
  layout cls := by
    refine Option.ext fun s => ?_
    rw [layout?_foldl hnames, layout?_foldl ((hperm.map _).nodup_iff.1 hnames)]
    simp only [hperm.mem_iff, (hperm.map Class.name).mem_iff]

/-! ## What is read off a catalog -/

namespace Agrees

variable {cat cat' : Catalog}

theorem kind_eq (h : cat.Agrees cat') (v : Variable) : cat.kind v = cat'.kind v := by
  have henabled : cat.isEnabled = cat'.isEnabled := funext h.enabled
  rw [kind, kind, henabled]

theorem plan_eq (h : cat.Agrees cat') (s : StructType) : cat.plan s = cat'.plan s := by
  have hown : cat.ownFields = cat'.ownFields := by
    funext t
    simp only [ownFields, h.kind_eq]
  rw [plan, plan, hown]

theorem expand_eq (h : cat.Agrees cat') (keep : Field → Bool) (path : List String)
    (fs : List Field) : cat.expand keep path fs = cat'.expand keep path fs := by
  -- by the run in one catalog, which the other one follows step by step
  fun_induction cat.expand keep path fs with
  | case1 path => rw [expand]
  | case2 path f fs hf cls hk hmem =>
    rw [expand, if_pos hf]
    simp only [hk, hmem, dif_pos]
  | case3 path f fs hf cls hk hmem hnone =>
    rw [h.layout] at hnone
    rw [expand, if_pos hf]
    simp only [hk, hmem, not_false_eq_true, dif_neg]
    split
    next => rfl
    next t ht =>
      rw [hnone] at ht
      cases ht
  | case4 path f fs hf cls hk hmem s hs ihInner ihTail =>
    rw [ihInner, ihTail, h.plan_eq]
    rw [h.layout] at hs
    conv_rhs => rw [expand, if_pos hf]
    simp only [hk, hmem, not_false_eq_true, dif_neg]
    split
    next hnone =>
      rw [hs] at hnone
      cases hnone
    next t ht =>
      obtain rfl := Option.some.inj (hs.symm.trans ht)
      rfl
  | case5 path f fs hf hk ih =>
    rw [ih]
    conv_rhs => rw [expand, if_pos hf]
    split
    next cls hkind => exact absurd hkind (hk cls)
    next => rfl
  | case6 path f fs hf ih => rw [ih, expand, if_neg hf]

/-- Classes get the same routines, or none for the same reason. -/
theorem routines_eq (h : cat.Agrees cat') (c : Class) : cat.routines c = cat'.routines c := by
  simp only [routines, toDevice, fromDevice, h.plan_eq, h.expand_eq]

end Agrees

end Catalog

end ClassForge.Device

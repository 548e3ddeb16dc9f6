import ClassForge.Proofs.Class.Precedence
import ClassForge.Proofs.Module.Build

/-!
# Superclasses are found

The order of a module's drafts keeps every draft behind the draft of its superclass. So when a draft
is resolved, the class that it extends has been resolved or was in scope from the start.
-/

namespace ClassForge.Module

open ClassForge.Class

/-- In a list of drafts, the draft that defines a superclass stands in front of the draft that
extends it, unless the superclass is known. -/
def SuperclassesFirst (known : List String) (ds : List Draft) : Prop :=
  ∀ l₁ d l₂, ds = l₁ ++ d :: l₂ → ∀ p ∈ ds, p.name = d.superclass → p.name ∉ known → p ∈ l₁

namespace SuperclassesFirst

variable {known : List String} {ds : List Draft}

theorem of_follows (hnodup : (ds.map (·.name)).Nodup) (h : Follows (ds.map (·.name)) ds) :
    SuperclassesFirst known ds := by
  rintro l₁ d l₂ rfl p hp hname -
  obtain ⟨x, hx, hxname⟩ := List.mem_map.1 (h l₁ d l₂ rfl (hname ▸ List.mem_map_of_mem hp))
  rwa [← eq_of_key_eq (f := Draft.name) hnodup (List.mem_append_left _ hx) hp
    (hxname.trans hname.symm)]

theorem follows (hfresh : ∀ d ∈ ds, d.name ∉ known) (h : SuperclassesFirst known ds) :
    Follows (ds.map (·.name)) ds := by
  intro l₁ d l₂ hsplit hd
  obtain ⟨p, hp, hname⟩ := List.mem_map.1 hd
  exact hname ▸ List.mem_map_of_mem (h l₁ d l₂ hsplit p hp hname (hfresh p hp))

end SuperclassesFirst

/-- An order holds each draft once, behind the draft of its superclass; drafts that come in such an
order keep it. When its turn comes, every draft finds the class that it extends among those in scope
and those resolved so far. -/
theorem order_superclasses_first {drafts out : List Draft} {known : List String}
    (h : order drafts known = .ok out) :
    out.Perm drafts ∧ out.Nodup ∧ SuperclassesFirst known out ∧
    (SuperclassesFirst known drafts → out = drafts) ∧
    ∀ (scope : List Class) (e : EntryPoints), scope.map (·.name) = known →
      ∀ l₁ d l₂ rs, out = l₁ ++ d :: l₂ → resolveAll scope e l₁ = .ok rs →
        ∃ base, classNamed? (scope ++ rs.map (·.cls)) d.superclass = some base := by
  obtain ⟨hperm, hnodup, hall⟩ := order_ok h
  obtain ⟨hgrounded, hfollows, hstable⟩ := order_follows h
  have hout : (out.map (·.name)).Nodup := (hperm.map _).nodup_iff.2 hnodup
  have hnames : ∀ n, n ∈ out.map (·.name) ↔ n ∈ drafts.map (·.name) :=
    fun n => (hperm.map Draft.name).mem_iff
  refine ⟨hperm, hout.of_map, ?_, fun hfirst => ?_, ?_⟩
  · exact .of_follows hout fun l₁ d l₂ hsplit hd => hfollows l₁ d l₂ hsplit ((hnames _).1 hd)
  · exact hstable (hfirst.follows fun d hd => (hall d hd).2)
  · rintro scope e rfl l₁ d l₂ rs rfl hres
    have hd : d ∈ drafts := hperm.subset (by simp)
    have hfound : d.superclass ∈ (scope ++ rs.map (·.cls)).map (·.name) := by
      rw [List.map_append, List.mem_append, resolveAll_names hres]
      exact (hgrounded d hd).symm.imp_right fun hdraft => hfollows l₁ d l₂ rfl hdraft
    obtain ⟨c, hc, hname⟩ := List.mem_map.1 hfound
    refine Option.isSome_iff_exists.1 (List.find?_isSome.2 ⟨c, hc, ?_⟩)
    simpa using hname

theorem order_superclasses_first_sample : ∃ out,
    order [{ name := "B", superclasses := ["A"] }, { name := "A" }] [Name.rootObject] = .ok out ∧
    out.map (·.name) = ["A", "B"] ∧ SuperclassesFirst [Name.rootObject] out := by
  obtain ⟨out, hout, hnames⟩ := exists_of_any_toOption
    (x := order [{ name := "B", superclasses := ["A"] }, { name := "A" }] [Name.rootObject])
    (P := fun out => out.map (·.name) = ["A", "B"]) (by decide +kernel)
  obtain ⟨-, -, hfirst, -⟩ := order_superclasses_first hout
  exact ⟨out, hout, hnames, hfirst⟩

end ClassForge.Module

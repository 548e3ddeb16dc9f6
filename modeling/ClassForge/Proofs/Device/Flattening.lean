import ClassForge.Device.Plan
import ClassForge.Proofs.C.StructChain
import ClassForge.Proofs.Class.Layout

/-!
# Plans along a lineage

The plan of a class's objects is the plan of those that its superclass has, followed by an entry for
each field that its own struct declares. What a struct has besides never shows: the embedded struct,
and at the top of the chain the class pointer. The names of a plan are all different, for along a
chain that was laid out a name is new in each struct that declares it.
-/

namespace ClassForge

open C ClassForge.Class

namespace Device.Catalog

/-- The entry of a plan for a field that a struct declares. -/
def entry (cat : Catalog) (owner : String) (v : Variable) : Field :=
  { name := v.name, owner := owner, kind := cat.kind v, syncBack := !v.quals.const }

theorem plan_object (cat : Catalog) : (cat.plan Root.object).fields = [] :=
  rfl

theorem plan_extension (cat : Catalog) (name : String) (base : StructType)
    (fields : List Variable) :
    (cat.plan (.extension name base fields)).fields
      = (cat.plan base).fields ++ cat.ownFields (.extension name base fields) := by
  simp only [plan, StructType.chain, List.reverse_cons, List.flatMap_append, List.flatMap_singleton]

/-- On top of a struct with a class pointer nothing is hidden but the embedded struct. -/
theorem ownFields_of_layOut (cat : Catalog) {name : String} {base s : StructType}
    {fields : List Variable} (h : StructType.layOut name (some base) fields = .ok s)
    (hbase : base.HasField Root.classField) :
    cat.ownFields s = s.declared.map (cat.entry s.name) := by
  -- the class pointer is the root's, so of the fields here only the embedded base is hidden
  have hshown : ∀ v ∈ fields, (!isHidden name v) = true := by
    intro v hv
    obtain ⟨hembedding, hfresh⟩ := StructType.not_hasField_of_layOut h hv
    have hclass : v.name ≠ Root.classField := fun heq => hfresh (heq ▸ hbase)
    simp [isHidden, hembedding, hclass]
  obtain rfl := StructType.layOut_ok h
  have hhidden : ¬ (!isHidden name (StructType.embedding base)) = true := by
    simp [isHidden, StructType.embedding]
  rw [ownFields, StructType.fields, StructType.name,
    List.filter_cons_of_neg (p := fun v => !isHidden name v) hhidden, List.filter_eq_self.2 hshown]
  rfl

end Device.Catalog

namespace Class

namespace Draft.Derives

variable {d : Draft} {base c : Class}

theorem object_chain (h : d.Derives base c) : c.object.chain = c.object :: base.object.chain := by
  rw [h.object_eq, StructType.chain]

end Draft.Derives

namespace Lineage

variable {ds : List Draft} {c : Class}

/-- The object structs of a lineage were laid out one on top of the other. -/
theorem laidOut_object (h : Lineage ds c) : c.object.LaidOut := by
  induction h with
  | root =>
    have hroot : StructType.layOut Name.rootObject none [Root.classPointer Root.classField]
        = .ok Root.object := rfl
    exact .root hroot
  | derive _ hres ih => exact .extension ih (EntryPoints.resolve_ok hres).1.object

theorem hasField_classField (h : Lineage ds c) : c.object.HasField Root.classField := by
  induction h with
  | root => exact ⟨Root.object, by decide, Root.classPointer Root.classField, by decide, rfl⟩
  | derive _ hres ih =>
    obtain ⟨s, hs, hfield⟩ := ih
    rw [StructType.HasField, (EntryPoints.resolve_ok hres).1.object_chain]
    exact ⟨s, List.mem_cons_of_mem _ hs, hfield⟩

/-- No field that a struct of the chain declares is named like an embedded struct. -/
theorem name_ne_baseField (h : Lineage ds c) {s : StructType} (hs : s ∈ c.object.chain)
    {v : Variable} (hv : v ∈ s.declared) : v.name ≠ StructType.baseField := by
  induction h with
  | root =>
    have hroot : ∀ s ∈ Root.object.chain, ∀ v ∈ s.declared, v.name ≠ StructType.baseField := by
      decide
    exact hroot s hs v hv
  | derive _ hres ih =>
    have hd := (EntryPoints.resolve_ok hres).1
    rw [hd.object_chain, List.mem_cons] at hs
    obtain rfl | hs := hs
    · rw [hd.object_eq] at hv
      exact (StructType.not_hasField_of_layOut hd.object hv).1
    · exact ih hs

/-- The root's struct ends the chain, and the plan goes through those below it. -/
theorem exists_plan_fields (h : Lineage ds c) (cat : Device.Catalog) :
    ∃ below, c.object.chain = below ++ [Root.object] ∧
      (cat.plan c.object).fields
        = below.reverse.flatMap fun s => s.declared.map (cat.entry s.name) := by
  induction h with
  | root => exact ⟨[], rfl, cat.plan_object⟩
  | @derive ds base e d r hbase hres ih =>
    have hd := (EntryPoints.resolve_ok hres).1
    obtain ⟨below, hchain, hfields⟩ := ih
    refine ⟨r.cls.object :: below, ?_, ?_⟩
    · rw [hd.object_chain, hchain, List.cons_append]
    · -- the plan of the superclass comes first, then the fields that the new struct declares
      have hown := cat.ownFields_of_layOut hd.object hbase.hasField_classField
      rw [hd.object_eq] at hown ⊢
      rw [cat.plan_extension, hfields, hown, List.reverse_cons, List.flatMap_append,
        List.flatMap_singleton]

theorem plan_names_nodup (h : Lineage ds c) (cat : Device.Catalog) :
    ((cat.plan c.object).fields.map (·.name)).Nodup := by
  obtain ⟨below, hchain, hfields⟩ := h.exists_plan_fields cat
  have hdeclared := h.laidOut_object.declared_names_nodup
  rw [hchain, List.reverse_append, List.flatMap_append, List.map_append] at hdeclared
  rw [hfields, List.map_flatMap]
  have hnames := (List.nodup_append.1 hdeclared).2.1
  rw [List.map_flatMap] at hnames
  simpa only [List.map_map, Function.comp_def, Device.Catalog.entry] using hnames

/-- What an entry of the plan is about: a field that one struct of the chain alone has. -/
theorem exists_owner (h : Lineage ds c) {cat : Device.Catalog} {f : Device.Field}
    (hf : f ∈ (cat.plan c.object).fields) :
    ∃ s ∈ c.object.chain, f.owner = s.name ∧ (∃ v ∈ s.declared, f = cat.entry s.name v) ∧
      c.object.chain.filter (fun t => (t.field? f.name).isSome) = [s] := by
  obtain ⟨below, hchain, hfields⟩ := h.exists_plan_fields cat
  rw [hfields] at hf
  obtain ⟨s, hs, hf⟩ := List.mem_flatMap.1 hf
  obtain ⟨v, hv, rfl⟩ := List.mem_map.1 hf
  have hmem : s ∈ c.object.chain := hchain ▸ List.mem_append_left _ (List.mem_reverse.1 hs)
  exact ⟨s, hmem, rfl, ⟨v, hv, rfl⟩,
    h.laidOut_object.filter_chain hmem (StructType.mem_fields hv) (h.name_ne_baseField hmem hv)⟩

/-- A class's plan opens with the plan of each class above it. -/
theorem plan_prefix (h : Lineage ds c) (cat : Device.Catalog) {a : Class} (ha : a ∈ c.chain) :
    (cat.plan a.object).fields <+: (cat.plan c.object).fields := by
  induction h with
  | root =>
    obtain rfl : a = rootClass := by simpa [rootClass, chain] using ha
    exact List.prefix_refl _
  | derive _ hres ih =>
    have hd := (EntryPoints.resolve_ok hres).1
    rw [hd.chain_eq, List.mem_cons] at ha
    obtain rfl | ha := ha
    · exact List.prefix_refl _
    · rw [hd.object_eq, cat.plan_extension]
      exact (ih ha).trans (List.prefix_append _ _)

/-- The plan of a class's objects has an entry for each field that the structs below the root's
declare, the outermost first and each in the order of its layout, and so leaves out just the
embedded structs and the root's class pointer. The names of the plan are all different. The owner of
an entry is the one struct of the chain that has the field. The plan of every class above stands at
the front, entry for entry. -/
theorem plan_flattens (h : Lineage ds c) (cat : Device.Catalog) :
    (∃ below, c.object.chain = below ++ [Root.object] ∧
      (cat.plan c.object).fields = below.reverse.flatMap fun s => s.declared.map fun v =>
        { name := v.name, owner := s.name, kind := cat.kind v, syncBack := !v.quals.const }) ∧
    ((cat.plan c.object).fields.map (·.name)).Nodup ∧
    (∀ f ∈ (cat.plan c.object).fields, ∃ s ∈ c.object.chain, f.owner = s.name ∧
      (∃ v ∈ s.declared, v.name = f.name) ∧
      c.object.chain.filter (fun t => (t.field? f.name).isSome) = [s]) ∧
    ∀ a ∈ c.chain, (cat.plan a.object).fields <+: (cat.plan c.object).fields := by
  refine ⟨h.exists_plan_fields cat, h.plan_names_nodup cat, fun f hf => ?_,
    fun a ha => h.plan_prefix cat ha⟩
  obtain ⟨s, hs, howner, ⟨v, hv, rfl⟩, hone⟩ := h.exists_owner hf
  exact ⟨s, hs, howner, ⟨v, hv, rfl⟩, hone⟩

end Lineage

namespace Sample

/-- A class with device copies that adds a pointer to its like and a field that never comes back. -/
def crate : Draft where
  name := "Crate"
  superclasses := ["Square"]
  fields :=
    [{ name := "next", type := .struct "Crate", pointer := true },
     { name := "weight", type := .int, quals := { const := true } }]
  coprocessor := true

end Sample

theorem Lineage.plan_flattens_sample : ∃ c, Lineage [Sample.crate, Sample.square, Sample.shape] c ∧
    (Device.Catalog.plan { enabled := ["Crate"] } c.object).fields
      = [{ name := "side", owner := "Square", kind := .plain false, syncBack := true },
         { name := "next", owner := "Crate", kind := .nested "Crate", syncBack := true },
         { name := "weight", owner := "Crate", kind := .plain false, syncBack := false }] ∧
    ∀ a ∈ c.chain, (Device.Catalog.plan { enabled := ["Crate"] } a.object).fields
      <+: (Device.Catalog.plan { enabled := ["Crate"] } c.object).fields := by
  obtain ⟨c, hc, hplan⟩ := exists_of_any_toOption
    (x := resolveChain [Sample.crate, Sample.square, Sample.shape])
    (P := fun c => (Device.Catalog.plan { enabled := ["Crate"] } c.object).fields
      = [{ name := "side", owner := "Square", kind := .plain false, syncBack := true },
         { name := "next", owner := "Crate", kind := .nested "Crate", syncBack := true },
         { name := "weight", owner := "Crate", kind := .plain false, syncBack := false }])
    (by decide +kernel)
  have hlin := Lineage.of_resolveChain hc
  obtain ⟨-, -, -, hprefix⟩ := hlin.plan_flattens { enabled := ["Crate"] }
  exact ⟨c, hlin, hplan, hprefix⟩

end Class

end ClassForge

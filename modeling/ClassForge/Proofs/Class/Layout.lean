import ClassForge.Proofs.C.Struct
import ClassForge.Proofs.Class.Lineage

/-!
# Class structs follow the method table

Along a lineage the structs of objects and of class objects open with those of the class above, and
the slots of the class structs are the entries of the method table, one for one and in its order.
The slot of an entry is declared by the class struct of the class that introduced it.
-/

namespace ClassForge.Class

open C

/-! ## Slots among fields -/

/-- The fields of class structs that are no slots: the embedded struct and what the root has. -/
def headerNames : List String :=
  ["_", "m_class", "super", "device_class", "size"]

/-- The slots of a class struct and of those it extends, in the order of the layout. -/
def slotFields (s : StructType) : List Variable :=
  s.chain.reverse.flatMap fun t => t.fields.filter fun f => f.name ∉ headerNames

theorem Name.slot_not_mem_headerNames (method : String) : Name.slot method ∉ headerNames := by
  simp [Name.slot, headerNames, String.ext_iff]

/-- The slots of a struct that adds slots to another. -/
theorem slotFields_extension (name : String) (base : StructType) (methods : List Method) :
    slotFields (.extension name base (methods.map (·.slotField)))
      = slotFields base ++ methods.map (·.slotField) := by
  have hslots : ((methods.map (·.slotField)).filter fun f => f.name ∉ headerNames)
      = methods.map (·.slotField) := by
    refine List.filter_eq_self.2 fun f hf => ?_
    obtain ⟨m, -, rfl⟩ := List.mem_map.1 hf
    exact decide_eq_true (Name.slot_not_mem_headerNames m.name)
  have hembedding : (StructType.embedding base).name ∈ headerNames := by
    simp [StructType.embedding, StructType.baseField, headerNames]
  simp only [slotFields, StructType.chain, StructType.fields, List.reverse_cons,
    List.flatMap_append, List.flatMap_singleton]
  rw [List.filter_cons_of_neg (by simpa using hembedding), hslots]

/-- The field for an entry's slot stays as it is below the class that introduced the entry. -/
@[simp] theorem Draft.slotField_inherit (d : Draft) (m : Method) :
    (d.inherit m).slotField = m.slotField :=
  congrArg (fun f : Face =>
    ({ name := Name.slot f.name, type := .typedef f.typedef } : Variable)) (d.face_inherit m)

/-! ## Along a lineage -/

namespace Draft.Derives

variable {d : Draft} {base c : Class}

theorem metaclass_eq (h : d.Derives base c) :
    c.metaclass = .extension (Name.metaclass d.name) base.metaclass
      ((d.added base.methods).map (·.slotField)) :=
  StructType.layOut_ok h.metaclass

theorem object_eq (h : d.Derives base c) : c.object = .extension d.name base.object d.fields :=
  StructType.layOut_ok h.object

/-- A new slot is declared by the class's own struct. -/
theorem declaring?_added (h : d.Derives base c) {m : Method} (hm : m ∈ d.added base.methods) :
    m.slotField ∈ c.metaclass.declared ∧ c.metaclass.declaring? m.slot = some c.metaclass := by
  have hdeclared : m.slotField ∈ c.metaclass.declared := by
    rw [h.metaclass_eq]
    exact List.mem_map_of_mem hm
  have hfield : m.slotField ∈ c.metaclass.fields := by
    rw [h.metaclass_eq] at hdeclared ⊢
    exact List.mem_cons_of_mem _ hdeclared
  exact ⟨hdeclared, StructType.declaring?_of_mem hfield⟩

/-- An inherited slot is declared where it is for the extended class. -/
theorem declaring?_inherited (h : d.Derives base c) {m : Method} (hm : m ∈ base.methods) :
    c.metaclass.declaring? m.slot = base.metaclass.declaring? m.slot := by
  rw [h.metaclass_eq]
  refine StructType.declaring?_extension fun f hf hslot => ?_
  obtain rfl | hf := List.mem_cons.1 hf
  · refine Name.slot_not_mem_headerNames m.name ?_
    rw [← Method.slot, ← hslot]
    simp [StructType.embedding, StructType.baseField, headerNames]
  · obtain ⟨n, hn, rfl⟩ := List.mem_map.1 hf
    obtain ⟨g, hg, rfl⟩ := List.mem_map.1 hn
    have hname : g.name = m.name := by
      simpa using Name.slot_inj.1 hslot
    exact (mem_newDefs.1 hg).2 m hm hname.symm

end Draft.Derives

namespace Lineage

variable {ds : List Draft} {c : Class}

/-- The structs of a class's objects and of its class object have names derived from its own. -/
theorem metaclass_name (h : Lineage ds c) : c.metaclass.name = Name.metaclass c.name := by
  cases h with
  | root => decide
  | derive _ hres =>
    have hd := (EntryPoints.resolve_ok hres).1
    rw [hd.metaclass_eq, hd.name]
    rfl

theorem slotFields_eq (h : Lineage ds c) :
    slotFields c.metaclass = c.methods.map (·.slotField) := by
  induction h with
  | root => decide
  | derive _ hres ih =>
    have hd := (EntryPoints.resolve_ok hres).1
    rw [hd.metaclass_eq, slotFields_extension, ih, hd.methods, List.map_append, List.map_map]
    simp [Function.comp_def]

/-- Where names do not repeat along the chain, the class that introduced an entry is determined, and
its class struct declares the slot. -/
theorem exists_introducer (h : Lineage ds c) (hnames : (c.chain.map (·.name)).Nodup) :
    ∀ m ∈ c.methods, ∃ a ∈ c.chain, a.name = m.introducedBy ∧
      (∀ b ∈ c.chain, b.name = m.introducedBy → b = a) ∧
      m.slotField ∈ a.metaclass.declared ∧ c.metaclass.declaring? m.slot = some a.metaclass := by
  induction h with
  | root => decide
  | @derive ds base e d r hbase hres ih =>
    have hd := (EntryPoints.resolve_ok hres).1
    rw [hd.chain_eq] at hnames ⊢
    obtain ⟨hfresh, hrest⟩ := List.nodup_cons.1 (List.map_cons ▸ hnames)
    intro m hm
    -- an inherited slot stays where it is declared; a new one is declared by the class itself
    obtain ⟨m₀, hm₀, rfl⟩ | hm := hd.mem_methods.1 hm
    · obtain ⟨a, ha, hname, honly, hdecl, hstruct⟩ := ih hrest m₀ hm₀
      have hslot : (d.inherit m₀).slot = m₀.slot :=
        congrArg Variable.name (d.slotField_inherit m₀)
      rw [d.introducedBy_inherit, d.slotField_inherit, hslot, hd.declaring?_inherited hm₀]
      refine ⟨a, List.mem_cons_of_mem _ ha, hname, ?_, hdecl, hstruct⟩
      intro b hb hbname
      obtain rfl | hb := List.mem_cons.1 hb
      · exact absurd (List.mem_map.2 ⟨a, ha, hname.trans hbname.symm⟩) hfresh
      · exact honly b hb hbname
    · have hintro : m.introducedBy = r.cls.name := by
        obtain ⟨f, -, rfl⟩ := List.mem_map.1 hm
        simp [hd.name]
      obtain ⟨hdecl, hstruct⟩ := hd.declaring?_added hm
      refine ⟨r.cls, List.mem_cons_self, hintro.symm, ?_, hdecl, hstruct⟩
      intro b hb hbname
      obtain rfl | hb := List.mem_cons.1 hb
      · rfl
      · exact absurd (List.mem_map.2 ⟨b, hb, hbname.trans hintro⟩) hfresh

/-- Below the root both structs of a class open with those of the class it extends. The slots of the
class structs, root first, are the entries of the method table in its order, each named by the
entry's slot and typed by its typedef. The class that introduced an entry declares its slot, in the
struct through which delegators and device code reach it. -/
theorem layout_follows_table (h : Lineage ds c) (hnames : (c.chain.map (·.name)).Nodup) :
    (∀ base, c.base? = some base →
      c.object.Embeds base.object ∧ c.metaclass.Embeds base.metaclass) ∧
    slotFields c.metaclass = c.methods.map (fun m => { name := m.slot, type := .typedef m.typedef }) ∧
    ∀ m ∈ c.methods, ∃ a ∈ c.chain, a.name = m.introducedBy ∧
      (∀ b ∈ c.chain, b.name = m.introducedBy → b = a) ∧
      a.metaclass.name = Name.metaclass m.introducedBy ∧
      m.slotField ∈ a.metaclass.declared ∧ c.metaclass.declaring? m.slot = some a.metaclass := by
  refine ⟨?_, h.slotFields_eq, ?_⟩
  · intro base hbase
    cases h with
    | root => cases hbase
    | derive _ hres =>
      have hd := (EntryPoints.resolve_ok hres).1
      obtain rfl := Option.some.inj (hd.base?_eq.symm.trans hbase)
      rw [hd.object_eq, hd.metaclass_eq]
      exact ⟨StructType.embeds_extension _ _ _, StructType.embeds_extension _ _ _⟩
  · intro m hm
    obtain ⟨a, ha, hname, honly, hdecl, hstruct⟩ := h.exists_introducer hnames m hm
    obtain ⟨ds', -, hlin⟩ := h.of_mem_chain ha
    exact ⟨a, ha, hname, honly, by rw [hlin.metaclass_name, hname], hdecl, hstruct⟩

theorem layout_follows_table_sample : ∃ c, Lineage Sample.chain c ∧
    c.chain.map (·.name) = ["Tile", "Square", "Shape", "MyriadObject"] ∧
    slotFields c.metaclass = c.methods.map (·.slotField) ∧
    ∀ m ∈ c.methods, ∃ a ∈ c.chain, a.name = m.introducedBy ∧
      c.metaclass.declaring? m.slot = some a.metaclass := by
  obtain ⟨c, hc, hchain⟩ := exists_of_any_toOption (x := resolveChain Sample.chain)
    (P := fun c => c.chain.map (·.name) = ["Tile", "Square", "Shape", "MyriadObject"])
    (by decide +kernel)
  have hlin := of_resolveChain hc
  obtain ⟨-, hslots, hdeclared⟩ := hlin.layout_follows_table (hchain ▸ by decide)
  refine ⟨c, hlin, hchain, hslots, fun m hm => ?_⟩
  obtain ⟨a, ha, hname, -, -, -, hstruct⟩ := hdeclared m hm
  exact ⟨a, ha, hname, hstruct⟩

end Lineage

end ClassForge.Class

import ClassForge.Proofs.Class.Table
import ClassForge.Proofs.Keyed

/-!
# Classes that come from the root

A `Lineage` is a class together with the drafts that lead to it from the root. `Draft.Derives` says
how a class stands to its draft and the class it extends; everything about classes below the root is
an induction on their lineage over it.
-/

namespace ClassForge.Class

open C

/-! ## One step -/

/-- How a class stands to the class it extends and the draft it was resolved from. -/
structure Draft.Derives (d : Draft) (base c : Class) : Prop where
  single : d.superclasses.length ≤ 1
  superclass : d.superclass = base.name
  extend : ∃ info, c = derived info base
  name : c.name = d.name
  coprocessor : c.coprocessor = d.coprocessor
  isAbstract : c.isAbstract = d.isAbstract
  methods : c.methods = base.methods.map d.inherit ++ d.added base.methods
  metaclass : StructType.layOut (Name.metaclass d.name) (some base.metaclass)
    ((d.added base.methods).map (·.slotField)) = .ok c.metaclass
  object : StructType.layOut d.name (some base.object) d.fields = .ok c.object
  defs_nodup : (d.methods.map (·.name)).Nodup
  /-- Only an abstract class leaves slots empty. -/
  complete : d.isAbstract = false → ∀ m ∈ c.methods, m.implementation.isSome
  noClash : (base.methods.flatMap (·.entryNames)).Nodup → (c.methods.flatMap (·.entryNames)).Nodup

theorem Draft.derives_of_resolveClass {d : Draft} {base c : Class} {t : Table}
    (h : d.resolveClass base = .ok (c, t)) :
    d.Derives base c ∧ t.introduced = d.added base.methods := by
  unfold Draft.resolveClass at h
  -- each check that passes is a field of `Derives`
  by_cases hsingle : 1 < d.superclasses.length
  · simp only [hsingle, if_true] at h
    exact absurd h throw_bind_ne_ok
  by_cases hsuper : d.superclass = base.name
  · simp only [hsingle, hsuper, if_false, ne_eq, not_true_eq_false] at h
    obtain ⟨t', htable, h⟩ := bind_eq_ok.1 h
    obtain ⟨mc, hmc, h⟩ := bind_eq_ok.1 h
    obtain ⟨ob, hob, h⟩ := bind_eq_ok.1 h
    obtain ⟨rfl, rfl⟩ := Prod.mk.inj (pure_eq_ok.1 h)
    obtain ⟨hinh, hintro, hdefs, hfull, hclash⟩ := Draft.table_ok htable
    have hentries : t'.entries = base.methods.map d.inherit ++ d.added base.methods := by
      rw [Table.entries, hinh, hintro]
    refine ⟨?_, hintro⟩
    exact {
      single := by omega
      superclass := hsuper
      extend := ⟨_, rfl⟩
      name := rfl
      coprocessor := rfl
      isAbstract := rfl
      methods := hentries
      metaclass := hintro ▸ ModelError.ofType_eq_ok.1 hmc
      object := ModelError.ofType_eq_ok.1 hob
      defs_nodup := hdefs
      complete := hfull
      noClash := hclash }
  · simp only [hsingle, if_false, ne_eq, hsuper, not_false_eq_true, if_true] at h
    exact absurd h throw_bind_ne_ok

/-- What resolving a draft gives, whatever entry points were made before. -/
theorem EntryPoints.resolve_ok {e : EntryPoints} {d : Draft} {base : Class} {r : Resolved}
    (h : (e.resolve d base).1 = .ok r) :
    d.Derives base r.cls ∧
      e.entries d.name ((d.added base.methods).map (·.signature))
        = (.ok r.entries, (e.resolve d base).2) := by
  unfold EntryPoints.resolve at h ⊢
  cases hres : d.resolveClass base with
  | error err => simp [hres] at h
  | ok ct =>
    obtain ⟨c, t⟩ := ct
    obtain ⟨hderives, hintro⟩ := Draft.derives_of_resolveClass hres
    simp only [hres, hintro] at h ⊢
    cases hent : e.entries d.name ((d.added base.methods).map (·.signature)) with
    | mk res e' =>
      cases res with
      | error err => simp [hent] at h
      | ok entries =>
        simp only [hent, Except.ok.injEq] at h
        subst h
        exact ⟨hderives, rfl⟩

/-- The entries that a draft adds have the names of some of its definitions. -/
theorem Draft.added_names_nodup {d : Draft} (h : (d.methods.map (·.name)).Nodup)
    (inherited : List Method) : ((d.added inherited).map (·.name)).Nodup := by
  have hnames : (d.added inherited).map (·.name) = (newDefs inherited d.methods).map (·.name) := by
    simp [added, Function.comp_def]
  rw [hnames]
  exact h.sublist (List.filter_sublist.map _)

namespace Draft.Derives

variable {d : Draft} {base c : Class}

theorem base?_eq (h : d.Derives base c) : c.base? = some base := by
  obtain ⟨info, rfl⟩ := h.extend
  rfl

theorem chain_eq (h : d.Derives base c) : c.chain = c :: base.chain := by
  obtain ⟨info, rfl⟩ := h.extend
  rfl

/-- The faces of the inherited entries are those that the extended class's entries have. -/
theorem map_face (h : d.Derives base c) :
    c.methods.map Method.face
      = base.methods.map Method.face ++ (d.added base.methods).map Method.face := by
  simp [h.methods, Function.comp_def]

theorem map_name (h : d.Derives base c) :
    c.methods.map (·.name)
      = base.methods.map (·.name) ++ (newDefs base.methods d.methods).map (·.name) := by
  simp [h.methods, added, Function.comp_def]

/-- What a class has under a name is what the extended class has there, else what it adds. -/
theorem method?_eq (h : d.Derives base c) (method : String) :
    c.method? method
      = ((base.method? method).map d.inherit).or
        ((d.added base.methods).find? (·.name == method)) := by
  simp only [method?, h.methods, List.find?_append, List.find?_map, Function.comp_def,
    Draft.name_inherit]

/-- Where an entry of a class comes from. -/
theorem mem_methods (h : d.Derives base c) {m : Method} :
    m ∈ c.methods ↔ (∃ m₀ ∈ base.methods, d.inherit m₀ = m) ∨ m ∈ d.added base.methods := by
  rw [h.methods, List.mem_append, List.mem_map]

/-- Names stay apart: a definition under a name that the table has adds no entry. -/
theorem names_nodup (h : d.Derives base c) (hbase : (base.methods.map (·.name)).Nodup) :
    (c.methods.map (·.name)).Nodup := by
  rw [h.map_name]
  refine hbase.append (h.defs_nodup.sublist (List.filter_sublist.map _)) ?_
  intro n hold hnew
  obtain ⟨m, hm, hmn⟩ := List.mem_map.1 hold
  obtain ⟨f, hf, hfn⟩ := List.mem_map.1 hnew
  exact (mem_newDefs.1 hf).2 m hm (hmn.trans hfn.symm)

end Draft.Derives

/-! ## Many steps -/

/-- A class that comes from the root by resolving drafts, one on top of the other, the last of them
first in the list. -/
inductive Lineage : List Draft → Class → Prop where
  | root : Lineage [] rootClass
  | derive {ds : List Draft} {base : Class} {e : EntryPoints} {d : Draft} {r : Resolved} :
    Lineage ds base → (e.resolve d base).1 = .ok r → Lineage (d :: ds) r.cls

namespace Lineage

variable {ds : List Draft} {c : Class}

/-- The last step of a lineage that has one. -/
theorem last {d : Draft} (h : Lineage (d :: ds) c) : ∃ base, Lineage ds base ∧ d.Derives base c := by
  cases h with
  | derive hbase hres => exact ⟨_, hbase, (EntryPoints.resolve_ok hres).1⟩

/-- Each class of the chain has a lineage of its own, from the older drafts. -/
theorem of_mem_chain (h : Lineage ds c) {a : Class} (ha : a ∈ c.chain) :
    ∃ ds', ds' <:+ ds ∧ Lineage ds' a := by
  induction h with
  | root =>
    obtain rfl : a = rootClass := by simpa [rootClass, chain] using ha
    exact ⟨[], List.suffix_refl _, root⟩
  | @derive ds base e d r hbase hres ih =>
    rw [(EntryPoints.resolve_ok hres).1.chain_eq, List.mem_cons] at ha
    obtain rfl | ha := ha
    · exact ⟨d :: ds, List.suffix_refl _, derive hbase hres⟩
    · obtain ⟨ds', hsuffix, hlin⟩ := ih ha
      exact ⟨ds', hsuffix.trans (List.suffix_cons _ _), hlin⟩

/-- The root is in every chain. -/
theorem rootClass_mem_chain (h : Lineage ds c) : rootClass ∈ c.chain := by
  induction h with
  | root => simp [rootClass, chain]
  | derive _ hres ih =>
    rw [(EntryPoints.resolve_ok hres).1.chain_eq]
    exact List.mem_cons_of_mem _ ih

/-- A class's table opens with the faces of every table above it. -/
theorem face_prefix (h : Lineage ds c) {a : Class} (ha : a ∈ c.chain) :
    a.methods.map Method.face <+: c.methods.map Method.face := by
  induction h with
  | root =>
    obtain rfl : a = rootClass := by simpa [rootClass, chain] using ha
    exact List.prefix_refl _
  | derive _ hres ih =>
    have hd := (EntryPoints.resolve_ok hres).1
    rw [hd.chain_eq, List.mem_cons] at ha
    obtain rfl | ha := ha
    · exact List.prefix_refl _
    · rw [hd.map_face]
      exact (ih ha).trans (List.prefix_append _ _)

theorem names_nodup (h : Lineage ds c) : (c.methods.map (·.name)).Nodup := by
  induction h with
  | root => decide
  | derive _ hres ih => exact (EntryPoints.resolve_ok hres).1.names_nodup ih

theorem entryNames_nodup (h : Lineage ds c) : (c.methods.flatMap (·.entryNames)).Nodup := by
  induction h with
  | root => decide
  | derive _ hres ih => exact (EntryPoints.resolve_ok hres).1.noClash ih

/-- An entry of a class above is in the table too, but for its implementation. -/
theorem exists_face_eq (h : Lineage ds c) {a : Class} (ha : a ∈ c.chain) {m₀ : Method}
    (hm₀ : m₀ ∈ a.methods) : ∃ m ∈ c.methods, m.face = m₀.face :=
  List.mem_map.1 ((h.face_prefix ha).subset (List.mem_map_of_mem hm₀))

/-- So the two entries of one name differ in the implementation at most. -/
theorem face_eq_of_name (h : Lineage ds c) {a : Class} (ha : a ∈ c.chain) {m₀ m : Method}
    (hm₀ : m₀ ∈ a.methods) (hm : m ∈ c.methods) (hname : m.name = m₀.name) : m.face = m₀.face := by
  obtain ⟨m', hm', hface⟩ := h.exists_face_eq ha hm₀
  obtain rfl : m' = m :=
    eq_of_key_eq h.names_nodup hm' hm ((congrArg Face.name hface).trans hname.symm)
  exact hface

/-- What is in the table under a name is the entry of that name. -/
theorem method?_of_mem (h : Lineage ds c) {m : Method} (hm : m ∈ c.methods) :
    c.method? m.name = some m :=
  find?_key_of_mem h.names_nodup hm

theorem slots_nodup (h : Lineage ds c) : (c.methods.map (·.slot)).Nodup := by
  have hinj : Function.Injective Name.slot := fun _ _ => Name.slot_inj.1
  have hslots := h.names_nodup.map hinj
  rwa [List.map_map] at hslots

theorem delegators_nodup (h : Lineage ds c) : (c.methods.map (·.delegator.name)).Nodup := by
  obtain ⟨-, hpair⟩ := List.nodup_flatMap.1 h.entryNames_nodup
  refine List.pairwise_map.2 (hpair.imp fun {a b} hdisj heq => ?_)
  exact hdisj (a := a.delegator.name) (by simp [Method.entryNames])
    (by simp [Method.entryNames, heq])

/-- A method's signature is the one that the class above has for it, else the draft's own. -/
theorem signature_eq (h : Lineage ds c) {d : Draft} {r : Class} (hd : d.Derives c r) {m : Method}
    (hm : m ∈ r.methods) {f : MethodDef} (hf : f ∈ d.methods) (hname : m.name = f.name) :
    m.signature = ((c.method? f.name).map (·.signature)).getD f.signature := by
  rcases hd.mem_methods.1 hm with ⟨m₀, hm₀, rfl⟩ | hadded
  · rw [Draft.name_inherit] at hname
    rw [← hname, h.method?_of_mem hm₀]
    exact congrArg Face.signature (d.face_inherit m₀)
  · obtain ⟨f', hf', rfl⟩ := List.mem_map.1 hadded
    rw [Draft.name_copied, MethodDef.name_introduce] at hname
    obtain ⟨hmem, hnew⟩ := mem_newDefs.1 hf'
    obtain rfl := eq_of_key_eq (f := MethodDef.name) hd.defs_nodup hmem hf hname
    have hnone : c.method? f'.name = none := find?_key_eq_none.2 hnew
    rw [hnone]
    exact congrArg Face.signature (d.face_copied (f'.introduce d.name))

/-- Every table has the slots that copy objects. -/
theorem exists_of_mem_copyMethods (h : Lineage ds c) {n : String} (hn : n ∈ copyMethods) :
    ∃ m ∈ c.methods, m.name = n := by
  have hroot : ∀ n ∈ copyMethods, ∃ m₀ ∈ rootClass.methods, m₀.name = n := by decide
  obtain ⟨m₀, hm₀, rfl⟩ := hroot n hn
  obtain ⟨m, hm, hface⟩ := h.exists_face_eq h.rootClass_mem_chain hm₀
  exact ⟨m, hm, congrArg Face.name hface⟩

/-- The entries that a class adds are its new definitions as they stand: the slots that copy objects
are never among them. -/
theorem added_eq (h : Lineage ds c) (d : Draft) :
    d.added c.methods = (newDefs c.methods d.methods).map (·.introduce d.name) := by
  refine List.map_congr_left fun f hf => Draft.copied_of_not_mem fun hcopy => ?_
  obtain ⟨m, hm, hname⟩ := h.exists_of_mem_copyMethods hcopy
  exact (mem_newDefs.1 hf).2 m hm hname

/-- Every entry was introduced by a class of the chain, and is there but for its implementation. -/
theorem exists_introduced (h : Lineage ds c) {m : Method} (hm : m ∈ c.methods) :
    ∃ a ∈ c.chain, ∃ m₀ ∈ a.introduced, m₀.face = m.face := by
  induction h generalizing m with
  | root =>
    have hall : rootClass.introduced = rootClass.methods := by decide
    exact ⟨rootClass, by simp [rootClass, chain], m, hall ▸ hm, rfl⟩
  | @derive ds base e d r hbase hres ih =>
    have hd := (EntryPoints.resolve_ok hres).1
    rw [hd.chain_eq]
    -- inherited from the superclass, face and all, or added by the class itself
    rcases hd.mem_methods.1 hm with ⟨m', hm', rfl⟩ | hadded
    · obtain ⟨a, ha, m₀, hm₀, hface⟩ := ih hm'
      exact ⟨a, List.mem_cons_of_mem _ ha, m₀, hm₀, hface.trans (d.face_inherit m').symm⟩
    · refine ⟨r.cls, List.mem_cons_self, m, List.mem_filter.2 ⟨hm, ?_⟩, rfl⟩
      obtain ⟨f, -, rfl⟩ := List.mem_map.1 hadded
      simp [hd.name]

/-- A class whose name no class above it has introduces just the entries that its draft adds. -/
theorem introduced_eq (h : Lineage ds c) {d : Draft} {r : Class} (hd : d.Derives c r)
    (hnew : d.name ∉ c.chain.map (·.name)) : r.introduced = d.added c.methods := by
  -- inherited methods name an ancestor as their introducer, and the new name is none of those
  have hold : (c.methods.map d.inherit).filter (·.introducedBy == r.name) = [] := by
    refine List.filter_eq_nil_iff.2 fun m hm heq => hnew ?_
    obtain ⟨m', hm', rfl⟩ := List.mem_map.1 hm
    obtain ⟨a, ha, m₀, hm₀, hface⟩ := h.exists_introduced hm'
    have hname : m'.introducedBy = a.name := by
      rw [← beq_iff_eq.1 (List.mem_filter.1 hm₀).2]
      exact (congrArg Face.introducedBy hface).symm
    rw [Draft.introducedBy_inherit, hname, hd.name] at heq
    exact List.mem_map.2 ⟨a, ha, beq_iff_eq.1 heq⟩
  have hadded : (d.added c.methods).filter (·.introducedBy == r.name) = d.added c.methods := by
    refine List.filter_eq_self.2 fun m hm => ?_
    obtain ⟨f, -, rfl⟩ := List.mem_map.1 hm
    simp [hd.name]
  rw [introduced, hd.methods, List.filter_append, hold, hadded, List.nil_append]

/-- The root's methods keep their signatures. -/
theorem signature_of_root (h : Lineage ds c) {m : Method} (hm : m ∈ c.methods) {s : Signature}
    (hs : s ∈ Root.signatures) (hname : m.name = s.name) : m.signature = s := by
  have hroot : ∀ s ∈ Root.signatures, ∃ m₀ ∈ rootClass.methods, m₀.signature = s := by decide
  obtain ⟨m₀, hm₀, rfl⟩ := hroot s hs
  exact congrArg Face.signature (h.face_eq_of_name h.rootClass_mem_chain hm₀ hm hname)

/-- A class's table opens with the table of each class above it, entry by entry but for kind and
implementation. Behind the entries of the class it extends stand just the methods that its draft
defines under new names, in the order of their definitions. All names of methods are different, and
so are all names of entry points. -/
theorem table_extends (h : Lineage ds c) :
    (∀ a ∈ c.chain, a.methods.map Method.face <+: c.methods.map Method.face) ∧
      (∀ d base, ds.head? = some d → c.base? = some base →
        c.methods.drop base.methods.length
          = (newDefs base.methods d.methods).map (·.introduce c.name)) ∧
      (c.methods.map (·.name)).Nodup ∧
      (c.methods.flatMap fun m => [m.delegator.name, m.superDelegator.name]).Nodup := by
  refine ⟨fun a ha => h.face_prefix ha, ?_, h.names_nodup, h.entryNames_nodup⟩
  intro d base hhead hbase
  obtain ⟨ds', rfl⟩ : ∃ ds', ds = d :: ds' := by
    cases ds with
    | nil => cases hhead
    | cons d' ds' => exact ⟨ds', by rw [Option.some.inj hhead]⟩
  obtain ⟨base', hlin, hd⟩ := h.last
  obtain rfl : base' = base := Option.some.inj (hd.base?_eq.symm.trans hbase)
  have hlen : base'.methods.length = (base'.methods.map d.inherit).length := by simp
  rw [hd.methods, hlen, List.drop_left, hlin.added_eq, hd.name]

end Lineage

/-! ## Three classes -/

/-- Resolves drafts one on top of the other, the last of them first in the list. -/
def resolveChain : List Draft → Except ModelError Class
  | [] => .ok rootClass
  | d :: ds => do
    let base ← resolveChain ds
    let r ← (EntryPoints.resolve {} d base).1
    return r.cls

theorem Lineage.of_resolveChain {ds : List Draft} {c : Class} (h : resolveChain ds = .ok c) :
    Lineage ds c := by
  induction ds generalizing c with
  | nil =>
    cases h
    exact .root
  | cons d ds ih =>
    obtain ⟨base, hbase, h⟩ := bind_eq_ok.1 h
    obtain ⟨r, hres, h⟩ := bind_eq_ok.1 h
    obtain rfl := pure_eq_ok.1 h
    exact (ih hbase).derive hres

namespace Sample

/-- A method that takes two sizes. -/
def resize (first second : String) (supply : Supply) : MethodDef where
  signature :=
    { name := "resize"
      params := [Root.self, { name := first, type := .int }, { name := second, type := .int }]
      returns := .void
      role := .method }
  supply := supply

/-- A class that leaves its method to others. -/
def shape : Draft where
  name := "Shape"
  methods := [resize "width" "height" .nothing]
  isAbstract := true

/-- A body for the method, with the sizes named the other way round. -/
def squareResize : MethodDef :=
  resize "height" "width" (.verbatim "((struct Square*) _self)->side = width;")

/-- A class that implements what it inherits. -/
def square : Draft where
  name := "Square"
  superclasses := ["Shape"]
  fields := [{ name := "side", type := .int }]
  methods := [squareResize, { signature := Root.dtor, supply := .external "square_free" }]

/-- A class with device copies that mentions a method of its superclass and adds one. -/
def tile : Draft where
  name := "Tile"
  superclasses := ["Square"]
  methods :=
    [resize "w" "h" .nothing,
     { signature := { name := "paint", params := [Root.self], returns := .void, role := .method }
       supply := .external "tile_paint" }]
  coprocessor := true

/-- The classes, the last first. -/
def chain : List Draft := [tile, square, shape]

end Sample

theorem Lineage.table_extends_sample : ∃ c, Lineage Sample.chain c ∧
    (c.methods.map (·.name)) = ["ctor", "dtor", "cudafy", "decudafy", "resize", "paint"] ∧
    (∀ a ∈ c.chain, a.methods.map Method.face <+: c.methods.map Method.face) ∧
    (c.methods.flatMap fun m => [m.delegator.name, m.superDelegator.name]).Nodup := by
  obtain ⟨c, hc, hnames⟩ := exists_of_any_toOption (x := resolveChain Sample.chain)
    (P := fun c => (c.methods.map (·.name))
      = ["ctor", "dtor", "cudafy", "decudafy", "resize", "paint"]) (by decide +kernel)
  have hlin := Lineage.of_resolveChain hc
  obtain ⟨habove, -, -, hentry⟩ := hlin.table_extends
  exact ⟨c, hlin, hnames, habove, hentry⟩

end ClassForge.Class

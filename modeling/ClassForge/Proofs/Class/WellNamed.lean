import ClassForge.Proofs.Class.Accepted
import ClassForge.Proofs.Class.Lineage

/-!
# Names that were checked

Generated text takes its names from classes, their structs and their methods. Each of them was
checked, when a variable, a signature or a method was made or when a struct was laid out, or is put
together from names that were. So all names of a class are C identifiers (`Class.WellNamed`) if its
draft was written with the constructors that check.
-/

namespace ClassForge

namespace C

/-- A variable that passed the check. -/
def Variable.Declared (v : Variable) : Prop :=
  Variable.declare v.name v.type v.pointer v.quals = .ok v

theorem Variable.Declared.isIdentifier {v : Variable} (h : v.Declared) :
    isIdentifier v.name = true := by
  obtain ⟨⟨⟩, hname, -⟩ := bind_eq_ok.1 h
  exact checkName_eq_ok.1 hname

/-- The names of a struct and of its fields are identifiers, and so are those of the structs that it
extends. -/
def StructType.WellNamed (s : StructType) : Prop :=
  ∀ t ∈ s.chain, isIdentifier t.name = true ∧ ∀ v ∈ t.fields, isIdentifier v.name = true

/-- A struct on top of one whose names are identifiers. -/
theorem StructType.WellNamed.layOut {name : String} {base s : StructType} {fields : List Variable}
    (hbase : base.WellNamed) (hfields : ∀ v ∈ fields, isIdentifier v.name = true)
    (h : layOut name (some base) fields = .ok s) : s.WellNamed := by
  obtain rfl := layOut_ok h
  have hembedding : C.isIdentifier baseField = true := by decide
  exact List.forall_mem_cons.2
    ⟨⟨isIdentifier_of_layOut h, List.forall_mem_cons.2 ⟨hembedding, hfields⟩⟩, hbase⟩

end C

namespace Class

open C

/-! ### Drafts -/

/-- A definition that was accepted, of a method whose signature can be made and whose parameters
passed the check. -/
structure MethodDef.Written (f : MethodDef) : Prop where
  signature : f.signature.Made
  params : ∀ p ∈ f.signature.params, p.Declared
  defined : ∃ kind text, MethodDef.define f.signature kind text = .ok f

/-- A draft of fields that passed the check and of definitions that were accepted. -/
structure Draft.Written (d : Draft) : Prop where
  fields : ∀ v ∈ d.fields, v.Declared
  methods : ∀ f ∈ d.methods, f.Written

theorem MethodDef.supply?_of_define {s : Signature} {kind : MethodKind} {text : Option String}
    {f : MethodDef} (h : define s kind text = .ok f) : supply? s.name kind text = .ok f.supply := by
  unfold define at h
  by_cases hrole : s.role = .method
  · simp only [hrole, ne_eq, not_true_eq_false, if_false] at h
    split at h
    next => cases h
    next =>
      obtain ⟨supply, hsupply, h⟩ := bind_eq_ok.1 h
      rw [hsupply, ← pure_eq_ok.1 h]
  · simp only [ne_eq, hrole, not_false_eq_true, if_true] at h
    exact absurd h throw_bind_ne_ok

/-- The symbol of a function that is linked from elsewhere was checked. -/
theorem MethodDef.isIdentifier_of_supply? {method symbol : String} {kind : MethodKind}
    {text : Option String} (h : supply? method kind text = .ok (.external symbol)) :
    isIdentifier symbol = true := by
  unfold supply? at h
  split at h
  next => cases h
  next =>
    split at h
    next hsymbol =>
      cases h
      exact hsymbol
    next => cases h
  next => cases h
  next => cases h

namespace MethodDef.Written

variable {f : MethodDef}

theorem isIdentifier_name (h : f.Written) : isIdentifier f.name = true :=
  h.signature.isIdentifier

theorem isIdentifier_param (h : f.Written) : ∀ p ∈ f.signature.params, isIdentifier p.name = true :=
  fun p hp => (h.params p hp).isIdentifier

theorem notMem_reserved (h : f.Written) : ∀ p ∈ f.signature.params, p.name ∉ Name.reserved := by
  obtain ⟨kind, text, hdefine⟩ := h.defined
  exact (MethodDef.define_ok hdefine).2.2

theorem isIdentifier_symbol (h : f.Written) {symbol : String}
    (hsupply : f.supply = .external symbol) :
    isIdentifier symbol = true := by
  obtain ⟨kind, text, hdefine⟩ := h.defined
  exact isIdentifier_of_supply? (hsupply ▸ supply?_of_define hdefine)

end MethodDef.Written

/-! ### Names put together -/

theorem isIdentifier_implementation {object method : String} (hobject : isIdentifier object = true)
    (hmethod : isIdentifier method = true) :
    isIdentifier (Name.implementation object method) = true :=
  isIdentifier_prefixed (isIdentifier_append hobject (by decide)) hmethod

theorem isIdentifier_typedef {introducer method : String}
    (hintroducer : isIdentifier introducer = true) (hmethod : isIdentifier method = true) :
    isIdentifier (Name.typedef introducer method) = true := by
  unfold Name.typedef
  split
  · split
    · decide
    · exact isIdentifier_append hmethod (by decide)
  · exact isIdentifier_append (isIdentifier_implementation hintroducer hmethod) (by decide)

theorem isIdentifier_delegator {introducer method : String} (h : isIdentifier method = true) :
    isIdentifier (Name.delegator introducer method) = true := by
  unfold Name.delegator
  split
  · exact isIdentifier_prefixed (by decide) h
  · exact h

/-! ### Tables -/

/-- The names of an entry are identifiers. -/
structure Method.WellNamed (m : Method) : Prop where
  name : isIdentifier m.name = true
  introducedBy : isIdentifier m.introducedBy = true
  symbol : ∀ i, m.implementation = some i → isIdentifier i.symbol = true

theorem isIdentifier_of_implementationOf {cls : String} (hcls : isIdentifier cls = true)
    {f : MethodDef} (hf : f.Written) {i : Implementation} (h : implementationOf cls f = some i) :
    isIdentifier i.symbol = true := by
  unfold implementationOf at h
  split at h
  next => cases h
  next symbol hsupply =>
    obtain rfl := Option.some.inj h
    exact hf.isIdentifier_symbol hsupply
  next =>
    obtain rfl := Option.some.inj h
    exact isIdentifier_implementation hcls hf.isIdentifier_name

namespace Method.WellNamed

variable {m : Method} {d : Draft}

theorem copied (h : m.WellNamed) (hname : isIdentifier d.name = true) : (d.copied m).WellNamed := by
  unfold Draft.copied Method.bindCopy
  split
  · split
    · exact { h with
        symbol := fun i hi => Option.some.inj hi ▸ isIdentifier_implementation hname h.name }
    · exact h
  · exact h

theorem inherit (h : m.WellNamed) (hd : d.Written) (hname : isIdentifier d.name = true) :
    (d.inherit m).WellNamed := by
  refine copied { h with symbol := fun i hi => ?_ } hname
  rcases Option.or_eq_some_iff.1 hi with hdef | ⟨-, hold⟩
  · obtain ⟨f, hf, himpl⟩ := Option.bind_eq_some_iff.1 hdef
    exact isIdentifier_of_implementationOf hname (hd.methods f (List.mem_of_find?_eq_some hf)) himpl
  · exact h.symbol i hold

theorem introduce {f : MethodDef} (hf : f.Written) (hname : isIdentifier d.name = true) :
    (f.introduce d.name).WellNamed where
  name := hf.isIdentifier_name
  introducedBy := hname
  symbol := fun _ hi => isIdentifier_of_implementationOf hname hf hi

end Method.WellNamed

/-! ### Classes -/

/-- The names of a class, of its structs and of its methods are identifiers. -/
structure WellNamed (c : Class) : Prop where
  name : isIdentifier c.name = true
  metaclass : isIdentifier c.metaclass.name = true
  superclass : isIdentifier c.superclassName = true
  object : c.object.WellNamed
  methods : ∀ m ∈ c.methods, m.WellNamed

theorem wellNamed_rootClass : rootClass.WellNamed where
  name := by decide
  metaclass := by decide
  superclass := by decide
  object := by unfold StructType.WellNamed; decide
  methods := by
    intro m hm
    obtain ⟨s, hs, rfl⟩ := List.mem_map.1 hm
    have hname : ∀ s ∈ Root.signatures, isIdentifier s.name = true := by decide
    have hroot : isIdentifier Name.rootObject = true := by decide
    exact
      { name := hname s hs
        introducedBy := hroot
        symbol := fun i hi => Option.some.inj hi ▸ isIdentifier_implementation hroot (hname s hs) }

/-- So it is with a class whose draft was written with checked names. -/
theorem Draft.Derives.wellNamed {d : Draft} {base c : Class} (h : d.Derives base c) (hd : d.Written)
    (hbase : base.WellNamed) : c.WellNamed := by
  have hname : isIdentifier d.name = true := StructType.isIdentifier_of_layOut h.object
  refine
    { name := h.name ▸ hname
      metaclass := ?_
      superclass := ?_
      object := hbase.object.layOut (fun v hv => (hd.fields v hv).isIdentifier) h.object
      methods := fun m hm => ?_ }
  · rw [StructType.layOut_ok h.metaclass]
    exact isIdentifier_metaclass hname
  · obtain ⟨info, rfl⟩ := h.extend
    exact hbase.name
  · -- inherited methods keep their names, those that are added had theirs checked
    rcases h.mem_methods.1 hm with ⟨m₀, hm₀, rfl⟩ | hadded
    · exact (hbase.methods m₀ hm₀).inherit hd hname
    · obtain ⟨f, hf, rfl⟩ := List.mem_map.1 hadded
      exact (Method.WellNamed.introduce (hd.methods f (mem_newDefs.1 hf).1) hname).copied hname

end Class

end ClassForge

import ClassForge.Proofs.Device.Expansion
import ClassForge.Proofs.Module.EntryPoints
import ClassForge.Proofs.Module.Files
import ClassForge.Proofs.Module.Provision
import Mathlib.Data.List.Forall2

/-!
# Prototypes agree with slots

A method's signature is written many times over: in the typedef of its slot, in its entry points and
with each implementation. All of them take the parameters and return the type of the signature that
the class which introduced the method gave it.
-/

namespace ClassForge.Module

open C ClassForge.Class

/-! ## Typedefs of slots -/

/-- The typedefs that are written for the slots that a class introduces: by the object runtime for
the root, else by the module that the class was built in. -/
inductive WrittenFor : Class → List Typedef → Prop where
  | root : WrittenFor rootClass runtime.typedefs
  | built {b : Builder} {m : Module} {u : ClassUnit} :
    (∀ c ∈ b.imports, Available c) → b.build = .ok m → u ∈ m.classes → WrittenFor u.cls u.typedefs

/-- A property that the root has, and the imported classes with all above them, holds of the classes
in scope with all above them. -/
theorem forall_chain_of_scope {b : Builder} {P : Class → Prop} (hroot : P rootClass)
    (himports : ∀ c ∈ b.imports, ∀ a ∈ c.chain, P a) : ∀ c ∈ b.scope, ∀ a ∈ c.chain, P a := by
  have hchain : ∀ a ∈ rootClass.chain, P a := by
    intro a ha
    obtain rfl : a = rootClass := by simpa [rootClass, chain] using ha
    exact hroot
  intro c hc
  refine (forall_mem_scope (P := fun c => ∀ a ∈ c.chain, P a) hchain ?_ c hc).1
  exact fun i hi c hci a ha => himports i hi a ((chain_suffix hci).subset ha)

/-- A property that the classes in scope have with all above them, and that all resolved classes
have, holds of all classes above those as well. -/
theorem resolveAll_chain {P : Class → Prop} {scope : List Class} {e : EntryPoints} {ds : List Draft}
    {rs : List Resolved} (hscope : ∀ c ∈ scope, ∀ a ∈ c.chain, P a)
    (h : resolveAll scope e ds = .ok rs) (hresolved : ∀ r ∈ rs, P r.cls) :
    ∀ r ∈ rs, ∀ a ∈ r.cls.chain, P a := by
  -- along the drafts; the scope grows by a class whose whole chain has the property
  induction ds generalizing scope e rs with
  | nil =>
    cases h
    simp
  | cons d ds ih =>
    obtain ⟨base, r, e', rs', hbase, hres, hrest, rfl⟩ := resolveAll_cons_ok h
    obtain ⟨hd, -⟩ := EntryPoints.resolve_ok (e := e) (by rw [hres])
    obtain ⟨hr, hresolved⟩ := List.forall_mem_cons.1 hresolved
    have hchain : ∀ a ∈ r.cls.chain, P a := by
      rw [hd.chain_eq]
      exact List.forall_mem_cons.2 ⟨hr, hscope base (List.mem_of_find?_eq_some hbase)⟩
    refine List.forall_mem_cons.2 ⟨hchain, ih (fun c hc => ?_) hrest hresolved⟩
    rcases List.mem_append.1 hc with hold | hnew
    · exact hscope c hold
    · exact List.mem_singleton.1 hnew ▸ hchain

/-- So it holds of all classes above those of a module, if it holds of these as well. -/
theorem Stages.forall_chain {b : Builder} {m : Module} {P : Class → Prop} (s : Stages b m)
    (hroot : P rootClass) (himports : ∀ c ∈ b.imports, ∀ a ∈ c.chain, P a)
    (hunits : ∀ u ∈ m.classes, P u.cls) : ∀ u ∈ m.classes, ∀ a ∈ u.cls.chain, P a := by
  have hmap := unitsOf_ok s.units
  have hresolved : ∀ r ∈ s.resolved, P r.cls := by
    intro r hr
    obtain ⟨v, hv, hunit⟩ := List.mem_map.1 (hmap ▸ List.mem_map_of_mem hr)
    rw [← (unitOf_ok hunit.symm).1]
    exact hunits v hv
  intro u hu a ha
  obtain ⟨r, hr, hunit⟩ := List.mem_map.1 (hmap ▸ List.mem_map_of_mem hu)
  rw [(unitOf_ok hunit).1] at ha
  exact resolveAll_chain (forall_chain_of_scope hroot himports) s.resolves hresolved r hr a ha

/-- The classes above a class that can be imported can be imported. -/
theorem Available.of_mem_chain {c a : Class} (h : Available c) (ha : a ∈ c.chain) :
    Available a := by
  induction h generalizing a with
  | root =>
    obtain rfl : a = rootClass := by simpa [rootClass, chain] using ha
    exact .root
  | @built b m u himports hbuild hu ih =>
    obtain ⟨s⟩ := build_ok hbuild
    exact s.forall_chain .root (fun c hc a => ih c hc) (fun v hv => .built himports hbuild hv) u hu a
      ha

theorem Available.exists_written {a : Class} (h : Available a) : ∃ ts, WrittenFor a ts := by
  cases h with
  | root => exact ⟨_, .root⟩
  | built himports hbuild hu => exact ⟨_, .built himports hbuild hu⟩

/-- They are those that the class's table names, whichever build writes them. -/
theorem WrittenFor.eq {a : Class} {ts : List Typedef} (h : WrittenFor a ts) :
    ts = a.introduced.map fun e => { name := e.typedef, signature := e.signature } := by
  cases h with
  | root => decide
  | built himports hbuild hu =>
    obtain ⟨s⟩ := build_ok hbuild
    exact (s.entries_eq (fun c hc => (himports c hc).sound) hu).1

/-- Slots that one class introduces have different typedefs. -/
theorem typedefs_nodup {a : Class} (h : a.Sound) : (a.introduced.map (·.typedef)).Nodup := by
  obtain ⟨ds, hlin⟩ := h.lineage
  cases hlin with
  | root => decide
  | @derive ds base e d r hbase hres =>
    have hlin : Lineage (d :: ds) r.cls := .derive hbase hres
    -- the root is further up, so this class has another name
    have hname : r.cls.name ≠ Name.rootObject := by
      have hnames := h.names
      rw [hlin.map_name_chain, List.map_cons, List.cons_append, List.nodup_cons] at hnames
      rw [(EntryPoints.resolve_ok hres).1.name]
      exact fun heq => hnames.1 (List.mem_append_right _ (by simp [heq]))
    have hmap : r.cls.introduced.map (·.typedef)
        = (r.cls.introduced.map (·.name)).map (Name.typedef r.cls.name) := by
      rw [List.map_map]
      refine List.map_congr_left fun m hm => ?_
      rw [Method.typedef, beq_iff_eq.1 (List.mem_filter.1 hm).2]
      rfl
    rw [hmap]
    refine List.Nodup.map (fun _ _ => (Name.typedef_inj hname).1) ?_
    exact hlin.names_nodup.sublist (List.filter_sublist.map _)

/-! ## Implementations -/

/-- How the source has what the author of a class supplies for an entry: as a declaration of the
function or as its static definition, with the entry's parameters and return type. -/
inductive Provides (e : Method) : Provision → Prop where
  | external {symbol cls : String} (himpl : e.implementation = some ⟨symbol, cls, .external⟩) :
    Provides e (.external { e.signature with name := symbol, role := .method })
  | verbatim {symbol cls text : String}
    (himpl : e.implementation = some ⟨symbol, cls, .verbatim text⟩) :
    Provides e (.definition
      { signature := { e.signature with name := symbol, role := .method, storage := some .static }
        body := .verbatim text })

/-- There is one provision for each entry that an author's function implements, in order. -/
theorem provisionsOf_provides {ms : List Method} {ps : List Provision}
    (h : provisionsOf ms = .ok ps) :
    List.Forall₂ Provides (ms.filter fun e => e.implementation.any (·.isUsers)) ps := by
  induction ms generalizing ps with
  | nil =>
    cases h
    exact .nil
  | cons e ms ih =>
    obtain ⟨p, hp, h⟩ := bind_eq_ok.1 h
    obtain ⟨ps', hrest, h⟩ := bind_eq_ok.1 h
    obtain rfl := pure_eq_ok.1 h
    have ih := ih hrest
    cases himpl : e.implementation with
    | none =>
      simp only [provisionOf, himpl] at hp
      cases hp
      simpa [himpl] using ih
    | some i =>
      obtain ⟨symbol, cls, source⟩ := i
      simp only [provisionOf, himpl] at hp
      cases source with
      | external =>
        cases hp
        simpa [himpl, Implementation.isUsers] using ⟨.external himpl, ih⟩
      | verbatim text =>
        obtain ⟨s, hs, hp⟩ := bind_eq_ok.1 hp
        obtain rfl := pure_eq_ok.1 hp
        obtain rfl := makeStatic_ok (ModelError.ofType_eq_ok.1 hs)
        simpa [himpl, Implementation.isUsers] using ⟨.verbatim himpl, ih⟩
      -- neither the runtime's functions nor generated ones are provided in this way
      | runtime =>
        cases hp
        simpa [himpl, Implementation.isUsers] using ih
      | generated =>
        cases hp
        simpa [himpl, Implementation.isUsers] using ih

theorem unitOf_provides {catalog : Device.Catalog} {r : Resolved} {u : ClassUnit}
    (h : unitOf catalog r = .ok u) : List.Forall₂ Provides u.cls.deviceSlots u.provisions := by
  obtain ⟨hcls, -, hprovisions, -⟩ := unitOf_ok h
  rw [hcls]
  exact provisionsOf_provides hprovisions

/-- The signature of a class's generated routine in the slot of a method of the root. -/
def routineSignature (c : Class) (s : Signature) : Signature :=
  { s with name := Name.implementation c.name s.name, role := .method, storage := some .static }

/-- A routine that is made only on a condition. -/
def madeIf (condition : Bool) (routine : Except ModelError FunctionDef) :
    Except ModelError (Option FunctionDef) :=
  if condition then some <$> routine else pure none

theorem madeIf_ok {condition : Bool} {routine : Except ModelError FunctionDef} {s : Signature}
    {made : Option FunctionDef} (hs : ∀ f, routine = .ok f → f.signature = s)
    (h : madeIf condition routine = .ok made) :
    made.map (·.signature) = if condition then some s else none := by
  unfold madeIf at h
  split at h
  next hcondition =>
    obtain ⟨f, hf, rfl⟩ := map_eq_ok.1 h
    rw [if_pos hcondition, Option.map_some, hs f hf]
  next hcondition =>
    obtain rfl := pure_eq_ok.1 h
    rw [if_neg hcondition, Option.map_none]

/-- The routines of a class are made one after the other. -/
theorem routines_eq_madeIf (catalog : Device.Catalog) (c : Class) :
    catalog.routines c = (do
      let toDevice ← madeIf (Device.isGenerated c Root.cudafy.name) (catalog.toDevice c)
      let fromDevice ← madeIf (Device.isGenerated c Root.decudafy.name) (catalog.fromDevice c)
      return {
        plan := catalog.plan c.object
        toDevice
        fromDevice
        classToDevice := Device.localRoutine Root.cudafy (Name.classToDevice c.name)
          (Device.classToDeviceCode c) }) :=
  catalog.routines_eq_bind c

/-- A class has just the generated routines that its table names. -/
theorem routines_ok {catalog : Device.Catalog} {c : Class} {routines : Device.Routines}
    (h : catalog.routines c = .ok routines) :
    routines.toDevice.map (·.signature)
        = (if Device.isGenerated c Root.cudafy.name then some (routineSignature c Root.cudafy)
          else none) ∧
      routines.fromDevice.map (·.signature)
        = (if Device.isGenerated c Root.decudafy.name then some (routineSignature c Root.decudafy)
          else none) := by
  rw [routines_eq_madeIf] at h
  obtain ⟨toDevice, hto, h⟩ := bind_eq_ok.1 h
  obtain ⟨fromDevice, hfrom, h⟩ := bind_eq_ok.1 h
  obtain rfl := pure_eq_ok.1 h
  refine ⟨madeIf_ok (fun f hf => ?_) hto, madeIf_ok (fun f hf => ?_) hfrom⟩
  · obtain ⟨_, -, hf⟩ := bind_eq_ok.1 hf
    rw [← pure_eq_ok.1 hf]
    rfl
  · obtain ⟨_, -, hf⟩ := bind_eq_ok.1 hf
    rw [← pure_eq_ok.1 hf]
    rfl

/-- Every class with device copies has the routine that copies its class object. -/
theorem classToDevice_eq {catalog : Device.Catalog} {c : Class} {routines : Device.Routines}
    (h : catalog.routines c = .ok routines) :
    routines.classToDevice = Device.localRoutine Root.cudafy (Name.classToDevice c.name)
      (Device.classToDeviceCode c) := by
  rw [routines_eq_madeIf] at h
  obtain ⟨_, -, h⟩ := bind_eq_ok.1 h
  obtain ⟨_, -, h⟩ := bind_eq_ok.1 h
  rw [← pure_eq_ok.1 h]

/-- `s` is the prototype with which the source has a class's implementation of an entry: that of the
declaration or definition in the entry's place among those that the class's author supplies, or that
of the routine generated for its slot. -/
inductive Emits (u : ClassUnit) (e : Method) : Signature → Prop where
  | external {s : Signature} (hplace : (e, .external s) ∈ u.cls.deviceSlots.zip u.provisions) :
    Emits u e s
  | verbatim {f : FunctionDef}
    (hplace : (e, .definition f) ∈ u.cls.deviceSlots.zip u.provisions) : Emits u e f.signature
  | toDevice {routines : Device.Routines} {f : FunctionDef}
    (hgenerated : e.implementation.any (·.source == .generated)) (hname : e.name = Root.cudafy.name)
    (hroutines : u.routines = some routines) (hf : routines.toDevice = some f) :
    Emits u e f.signature
  | fromDevice {routines : Device.Routines} {f : FunctionDef}
    (hgenerated : e.implementation.any (·.source == .generated))
    (hname : e.name = Root.decudafy.name)
    (hroutines : u.routines = some routines) (hf : routines.fromDevice = some f) :
    Emits u e f.signature

/-- The prototype of the function that a piece of a file declares or defines. -/
def prototype? : Output.Item → Option Signature
  | .externFunction s => some s
  | .function f => some f.signature
  | _ => none

/-- Two functions take the same parameters, in the same order, and return the same type. -/
def Agrees (s t : Signature) : Prop :=
  s.params = t.params ∧ s.returns = t.returns

/-- A generated routine agrees with the root's method in whose slot it stands. -/
theorem agrees_of_made {condition : Bool} {c : Class} {s : Signature} {made : Option FunctionDef}
    {f : FunctionDef}
    (hmade : made.map (·.signature) = if condition then some (routineSignature c s) else none)
    (hf : made = some f) : Agrees f.signature s := by
  rw [hf, Option.map_some] at hmade
  split at hmade
  next =>
    rw [Option.some.inj hmade]
    exact ⟨rfl, rfl⟩
  next => cases hmade

/-- What is emitted for an implementation is in the source. -/
theorem mem_source_of_emits {m : Module} {u : ClassUnit} (hu : u ∈ m.classes) {e : Method}
    {s : Signature} (h : Emits u e s) : ∃ i ∈ Output.source m, prototype? i = some s := by
  -- what users provide comes first in the items of a class, then its copy routines
  cases h with
  | external hplace =>
    have hp := (List.of_mem_zip hplace).2
    refine ⟨.externFunction s, mem_source_of_mem_items hu (List.mem_append_left _ ?_), rfl⟩
    exact List.mem_flatMap.2 ⟨_, hp, List.mem_cons_self⟩
  | @verbatim f hplace =>
    have hp := (List.of_mem_zip hplace).2
    refine ⟨.function f, mem_source_of_mem_items hu (List.mem_append_left _ ?_), rfl⟩
    exact List.mem_flatMap.2 ⟨_, hp, List.mem_cons_self⟩
  | @toDevice routines f _ _ hroutines hf =>
    refine ⟨.function f, mem_source_of_mem_items hu (List.mem_append_right _ ?_), rfl⟩
    refine List.mem_flatMap.2 ⟨routines, by simp [hroutines], List.mem_flatMap.2 ⟨f, ?_, ?_⟩⟩
    · simp [hf]
    · exact List.mem_cons_self
  | @fromDevice routines f _ _ hroutines hf =>
    refine ⟨.function f, mem_source_of_mem_items hu (List.mem_append_right _ ?_), rfl⟩
    refine List.mem_flatMap.2 ⟨routines, by simp [hroutines], List.mem_flatMap.2 ⟨f, ?_, ?_⟩⟩
    · simp [hf]
    · exact List.mem_cons_self

section Origin

variable {d : Draft} {above : List Draft} {base : Class} {r : Resolved} {u : ClassUnit}
  {catalog : Device.Catalog}

/-- A prototype that is emitted for an entry agrees with the entry's signature. -/
theorem agrees_of_emits (h : Origin d above base r) (hunit : unitOf catalog r = .ok u) {e : Method}
    (he : e ∈ u.cls.implemented) {s : Signature} (hs : Emits u e s) : Agrees s e.signature := by
  obtain ⟨hcls, -, -, -, -, -, hroutines⟩ := unitOf_ok hunit
  obtain ⟨-, hprovides⟩ := List.forall₂_iff_zip.1 (unitOf_provides hunit)
  have hmem : e ∈ r.cls.methods := hcls ▸ (List.mem_filter.1 he).1
  cases hs with
  | external hplace =>
    cases hprovides hplace
    exact ⟨rfl, rfl⟩
  | @verbatim f hplace =>
    generalize hp : Provision.definition f = p at hplace
    cases hprovides hplace with
    | external => cases hp
    | verbatim =>
      cases hp
      exact ⟨rfl, rfl⟩
  | @toDevice routines f hgenerated hname hsome hf =>
    -- a copy routine has the signature of the root's method, as has the entry
    rw [h.lineage_cls.signature_of_root hmem (by simp [Root.signatures]) hname]
    exact agrees_of_made (routines_ok (hroutines routines hsome)).1 hf
  | @fromDevice routines f hgenerated hname hsome hf =>
    rw [h.lineage_cls.signature_of_root hmem (by simp [Root.signatures]) hname]
    exact agrees_of_made (routines_ok (hroutines routines hsome)).2 hf

/-- Every entry that a class implements has a prototype. -/
theorem exists_emits (h : Origin d above base r) (hunit : unitOf catalog r = .ok u) {e : Method}
    (he : e ∈ u.cls.implemented) : ∃ s, Emits u e s := by
  obtain ⟨hcls, -, -, -, -, hsome, hroutines⟩ := unitOf_ok hunit
  rw [hcls] at he
  obtain ⟨i, himpl, hsupply⟩ := h.lineage_cls.supply?_of_implemented h.names he
  rcases Draft.source_of_supply? hsupply with husers | ⟨hsource, hco, hcopy⟩
  · -- one of the author's own functions: the provision in the place of the entry
    have hslot : e ∈ u.cls.deviceSlots := by
      rw [hcls]
      exact List.mem_filter.2 ⟨he, by simp [himpl, husers]⟩
    have hplaces : (u.cls.deviceSlots.zip u.provisions).map Prod.fst = u.cls.deviceSlots :=
      List.map_fst_zip (Nat.le_of_eq (unitOf_provides hunit).length_eq)
    obtain ⟨⟨_, p⟩, hplace, rfl⟩ := List.mem_map.1 (hplaces ▸ hslot)
    cases p with
    | external s => exact ⟨s, .external hplace⟩
    | definition f => exact ⟨f.signature, .verbatim hplace⟩
  · rw [h.derives.coprocessor.trans hco] at hsome
    obtain ⟨routines, hroutine⟩ := Option.isSome_iff_exists.1 hsome
    obtain ⟨hto, hfrom⟩ := routines_ok (hroutines routines hroutine)
    obtain ⟨hmem, hprovided⟩ := List.mem_filter.1 he
    have hgenerated : Device.isGenerated r.cls e.name = true := by
      rw [Device.isGenerated, h.lineage_cls.method?_of_mem hmem, Option.bind_some, himpl]
      simpa [hsource, Method.providedBy, himpl] using hprovided
    have hany : e.implementation.any (·.source == .generated) = true := by
      simp [himpl, hsource]
    simp only [copyMethods, List.mem_cons, List.not_mem_nil, or_false] at hcopy
    rcases hcopy with hname | hname
    · rw [if_pos (hname ▸ hgenerated)] at hto
      obtain ⟨f, hf, -⟩ := Option.map_eq_some_iff.1 hto
      exact ⟨f.signature, .toDevice hany hname hroutine hf⟩
    · rw [if_pos (hname ▸ hgenerated)] at hfrom
      obtain ⟨f, hf, -⟩ := Option.map_eq_some_iff.1 hfrom
      exact ⟨f.signature, .fromDevice hany hname hroutine hf⟩

end Origin

/-- In a module that builds, the entry points of each class have the names and signatures that its
table records, in the order of the entries that the class introduces. For every entry that the class
implements a prototype is emitted in the source, and each such prototype agrees with the typedef of
the slot, which is written for the class that introduced the entry. So does the delegator, and the
super-delegator takes the class to start from in front. -/
theorem prototypes_agree {b : Builder} {m : Module} {u : ClassUnit}
    (himports : ∀ c ∈ b.imports, Available c) (hbuild : b.build = .ok m) (hu : u ∈ m.classes) :
    u.typedefs = u.cls.introduced.map (fun e => { name := e.typedef, signature := e.signature }) ∧
    u.delegators.map (·.signature) = u.cls.introduced.map (·.delegator) ∧
    u.superDelegators.map (·.signature) = u.cls.introduced.map (·.superDelegator) ∧
    m.Writes (m.name ++ ".c") (Output.source m) ∧
    ∀ e ∈ u.cls.implemented, (∃ s, Emits u e s) ∧
      ∃ a ∈ u.cls.chain, a.name = e.introducedBy ∧ (∃ ts, WrittenFor a ts) ∧
      ∀ ts, WrittenFor a ts → ∃ t ∈ ts, t.name = e.typedef ∧
        (∀ t' ∈ ts, t'.name = e.typedef → t' = t) ∧
        (∀ s, Emits u e s →
          (∃ i ∈ Output.source m, prototype? i = some s) ∧ Agrees s t.signature) ∧
        Agrees e.delegator t.signature ∧
        Agrees e.superDelegator
          { t.signature with
            params := { name := "_class", type := .void, pointer := true, quals := { const := true } }
              :: t.signature.params } := by
  have hsound : ∀ c ∈ b.imports, c.Sound := fun c hc => (himports c hc).sound
  obtain ⟨s⟩ := build_ok hbuild
  obtain ⟨d, -, above, base, r, horigin, hunit⟩ := s.exists_origin hsound hu
  obtain ⟨htypedefs, hdelegators, hsupers⟩ := s.entries_eq hsound hu
  refine ⟨htypedefs, hdelegators, hsupers, s.writes_source, fun e he =>
    ⟨exists_emits horigin hunit he, ?_⟩⟩
  have hcls := (unitOf_ok hunit).1
  -- the class of the chain that introduced the entry has it with the same face
  obtain ⟨a, ha, e₀, he₀, hface⟩ :=
    horigin.lineage_cls.exists_introduced (hcls ▸ (List.mem_filter.1 he).1)
  rw [← hcls] at ha
  have havailable : Available a := (Available.built himports hbuild hu).of_mem_chain ha
  have hsignature : e₀.signature = e.signature := congrArg Face.signature hface
  have hname : e₀.typedef = e.typedef := congrArg Face.typedef hface
  refine ⟨a, ha, ?_, havailable.exists_written, fun ts hts => ?_⟩
  · have hintroducer : e₀.introducedBy = e.introducedBy := congrArg Face.introducedBy hface
    rw [← hintroducer]
    exact (beq_iff_eq.1 (List.mem_filter.1 he₀).2).symm
  · rw [hts.eq]
    refine ⟨_, List.mem_map_of_mem he₀, hname, fun t' ht' heq => ?_, fun s hs => ?_, ?_, ?_⟩
    · -- no class introduces two entries with one typedef
      obtain ⟨e₁, he₁, rfl⟩ := List.mem_map.1 ht'
      rw [eq_of_key_eq (typedefs_nodup havailable.sound) he₁ he₀ (heq.trans hname.symm)]
    · exact ⟨mem_source_of_emits hu hs, hsignature ▸ agrees_of_emits horigin hunit he hs⟩
    · exact hsignature ▸ ⟨rfl, rfl⟩
    · exact hsignature ▸ ⟨rfl, rfl⟩

theorem prototypes_agree_sample : ∃ m u, Sample.tiles.build = .ok m ∧ u ∈ m.classes ∧
    u.cls.implemented.map (·.name) = ["dtor", "resize"] ∧
    ∀ e ∈ u.cls.implemented, ∃ s, Emits u e s ∧ Agrees s e.delegator := by
  have hsorted : sortByName Sample.tiles.scope = Sample.tiles.scope :=
    List.mergeSort_of_pairwise (by decide +kernel)
  obtain ⟨m, hbuild, u, hu, hnames⟩ : ∃ m, Sample.tiles.build = .ok m ∧
      ∃ u ∈ m.classes, u.cls.implemented.map (·.name) = ["dtor", "resize"] := by
    refine exists_of_any_toOption ?_
    rw [Builder.build, hsorted]
    decide +kernel
  obtain ⟨-, -, -, -, hall⟩ := prototypes_agree Sample.available_imports hbuild hu
  refine ⟨m, u, hbuild, hu, hnames, fun e he => ?_⟩
  obtain ⟨⟨s, hs⟩, a, -, -, ⟨ts, hts⟩, hslot⟩ := hall e he
  obtain ⟨t, -, -, -, hemitted, hdelegator, -⟩ := hslot ts hts
  obtain ⟨-, hparams, hreturns⟩ := hemitted s hs
  exact ⟨s, hs, hparams.trans hdelegator.1.symm, hreturns.trans hdelegator.2.symm⟩

end ClassForge.Module

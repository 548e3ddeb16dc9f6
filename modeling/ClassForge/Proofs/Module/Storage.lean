import ClassForge.Proofs.C.Struct
import ClassForge.Proofs.Module.Contents
import ClassForge.Proofs.Module.Files
import ClassForge.Proofs.Module.Made

/-!
# Storage classes at file scope

A declaration at file scope has at most one storage class. Some pieces of a file put `extern` in
front of what they declare, and what they declare may come with a storage class of its own.
Variables and fields are refused one when they are declared, functions are refused `static` alone.
-/

namespace ClassForge

open C

/-! ## The storage classes of a piece -/

namespace C

/-- The storage classes that a signature has behind the function's own: with what it returns and
with its parameters. -/
def Signature.storagesWithin (s : Signature) : List Storage :=
  s.returns.quals.storage.toList ++ s.params.flatMap (·.quals.storage.toList)

theorem Signature.Plain.storagesWithin {s : Signature} (h : s.Plain) : s.storagesWithin = [] := by
  rw [Signature.storagesWithin, h.returns, Option.toList_none, List.nil_append,
    List.flatMap_eq_nil_iff]
  exact fun p hp => by rw [h.params p hp, Option.toList_none]

/-- The fields of a struct that is laid out have no storage classes. -/
theorem StructType.storage_of_layOut {name : String} {base s : StructType} {fields : List Variable}
    (h : layOut name (some base) fields = .ok s) : ∀ f ∈ s.fields, f.quals.storage = none := by
  obtain ⟨-, hcheck⟩ := exists_layOut_iff.1 ⟨s, h⟩
  have hfields := (checkFields_eq_ok.1 hcheck).1
  obtain rfl := StructType.layOut_ok h
  exact List.forall_mem_cons.2
    ⟨rfl, fun f hf => Variable.storage_of_checkStorable (hfields f hf).1⟩

end C

namespace Output

/-- The storage classes in front of a declaration, in order. -/
def Item.storagesInFront : Item → List Storage
  | .externVariable v => .external :: v.quals.storage.toList
  | .variable v => v.quals.storage.toList
  | .externFunction s => .external :: s.storage.toList
  | .function f => f.signature.storage.toList
  | .externDevice _ => [.external]
  | _ => []

/-- What stands behind the storage classes in front. -/
def Item.textBehind : Item → String
  | .externVariable v | .variable v =>
    { v with quals := { v.quals with storage := none } : Variable }.text ++ ";\n"
  | .externFunction s => { s with storage := none }.text ++ ";\n"
  | .function f => { f with signature := { f.signature with storage := none } }.text ++ "\n"
  | .externDevice v => v.text ++ ";\n"
  | i => i.text

/-- The storage classes among the words of a text. -/
def storagesAmongWords (text : String) : List Storage :=
  (text.toByteArray.data.toList.splitOn ' '.toUInt8).filterMap fun word =>
    [Storage.static, .external].find? (·.keyword.toByteArray.data.toList == word)

/-- The storage classes behind those in front: of fields, parameters and what is returned, and the
words of a fixed line. -/
def Item.storagesBehind : Item → List Storage
  | .line text => storagesAmongWords text
  | .typedef t => t.signature.storagesWithin
  | .struct s => s.fields.flatMap (·.quals.storage.toList)
  | .externFunction s => s.storagesWithin
  | .function f => f.signature.storagesWithin
  | _ => []

/-- All storage classes of a piece of a file. -/
def Item.storages (i : Item) : List Storage :=
  i.storagesInFront ++ i.storagesBehind

/-- The text of a piece opens with the keywords of the storage classes in front. -/
theorem Item.text_eq_storagesInFront (i : Item) :
    i.text = String.join (i.storagesInFront.map fun s => s.keyword ++ " ") ++ i.textBehind := by
  have hextern : Storage.external.keyword ++ " " = "extern " := rfl
  have hleading : ∀ s : Option Storage,
      Storage.leading s = String.join (s.toList.map fun s => s.keyword ++ " ") := by
    intro s
    cases s <;> simp [Storage.leading]
  cases i <;>
    simp [text, storagesInFront, textBehind, hextern, hleading, Variable.text, TypeUse.spelling,
      Qualifiers.leading, FunctionDef.text, Signature.text, Signature.paramText, String.append_assoc]

/-- The piece has at most one storage class, except where it declares a function that has one itself
as defined elsewhere. -/
def Item.AtMostOne (i : Item) : Prop :=
  i.storages.length ≤ 1 ∨ ∃ s : Signature, i = .externFunction s ∧ s.Plain

theorem Item.storages_typedef {name : String} {s : Signature} (h : s.Plain) :
    (Item.typedef { name, signature := s }).storages = [] := by
  simp [storages, storagesInFront, storagesBehind, h.storagesWithin]

theorem Item.storages_struct {s : StructType} (h : ∀ f ∈ s.fields, f.quals.storage = none) :
    (Item.struct s).storages = [] := by
  have hfields : s.fields.flatMap (·.quals.storage.toList) = [] :=
    List.flatMap_eq_nil_iff.2 fun f hf => by rw [h f hf, Option.toList_none]
  simp only [storages, storagesInFront, storagesBehind, hfields, List.nil_append]

theorem Item.storages_externVariable {v : Variable} (h : v.quals.storage = none) :
    (Item.externVariable v).storages = [.external] := by
  simp [storages, storagesInFront, storagesBehind, h]

theorem Item.storages_variable {v : Variable} (h : v.quals.storage = none) :
    (Item.variable v).storages = [] := by
  simp [storages, storagesInFront, storagesBehind, h]

theorem Item.storages_externFunction {s : Signature} (h : s.Plain) :
    (Item.externFunction s).storages = .external :: s.storage.toList := by
  simp [storages, storagesInFront, storagesBehind, h.storagesWithin]

theorem Item.AtMostOne.length_le_one_iff {i : Item} (h : i.AtMostOne) :
    i.storages.length ≤ 1 ↔ ∀ s, i = .externFunction s → s.storage = none := by
  rcases h with hone | ⟨s, rfl, hplain⟩
  · refine iff_of_true hone ?_
    rintro s rfl
    have hfront : s.storage.toList = [] := by
      simp only [Item.storages, Item.storagesInFront, List.length_append, List.length_cons] at hone
      exact List.eq_nil_of_length_eq_zero (by omega)
    simpa using hfront
  · simp [Item.storages_externFunction hplain]

theorem Item.atMostOne_function {f : FunctionDef} (h : f.signature.Plain) :
    (Item.function f).AtMostOne := by
  refine .inl ?_
  rw [storages, storagesInFront, storagesBehind, h.storagesWithin, List.append_nil]
  exact Option.length_toList_le

/-- Fixed lines aside, what declares nothing has no storage class but that of a device symbol. -/
theorem Item.atMostOne_of_not_declares {i : Item} (h : i.declares = false)
    (hline : ∀ text, i = .line text → i.AtMostOne) : i.AtMostOne := by
  cases i with
  | line text => exact hline text rfl
  | _ =>
    simp [declares] at h <;>
      exact .inl (by simp [storages, storagesInFront, storagesBehind])

theorem mem_paragraph_line {items : List Item} {text : String} :
    .line text ∈ paragraph items ↔ .line text ∈ items := by
  unfold paragraph
  split
  next hempty => rw [List.isEmpty_iff.1 hempty]
  next => simp

/-- The fixed lines of a header are those of the object runtime. -/
theorem line_mem_header {m : Module} {text : String} (hkind : m.kind = .user)
    (h : .line text ∈ header m) : .line text ∈ runtimeItems := by
  simpa [header, includeItems, typedefItems, forwardItems, externItems, definitionItems, classItems,
    mem_paragraph_line, hkind] using h

/-- The fixed lines of a source are those for device code. -/
theorem line_mem_source {m : Module} {text : String} (h : .line text ∈ source m) :
    .line text ∈ checkItems := by
  have hsection : ∀ u, .line text ∉ classSection u :=
    not_mem_classSection rfl (by simp) (by simp)
  have hchecks : m.hasDeviceCode = true ∧ .line text ∈ checkItems := by
    simpa [source, preludeItems, globalItems, functionItems, hsection] using h
  exact hchecks.2

end Output

/-! ## Built modules -/

namespace Module

open ClassForge.Class Output

theorem plain_of_agrees {s t : Signature} (ht : t.Plain) (h : Agrees s t) : s.Plain := by
  obtain ⟨hparams, hreturns⟩ := h
  exact ⟨hparams ▸ ht.params, hreturns ▸ ht.returns⟩

theorem plain_delegator {e : Method} (h : e.signature.Plain) : e.delegator.Plain :=
  ⟨h.params, h.returns⟩

theorem plain_superDelegator {e : Method} (h : e.signature.Plain) : e.superDelegator.Plain :=
  ⟨List.forall_mem_cons.2 ⟨rfl, h.params⟩, h.returns⟩

/-- A copy routine takes and returns what the root's method does. -/
theorem agrees_of_mem_routinesOf {catalog : Device.Catalog} {r : Resolved} {u : ClassUnit}
    {f : FunctionDef} (hunit : unitOf catalog r = .ok u) (hf : f ∈ routinesOf u) :
    ∃ s ∈ Root.signatures, Agrees f.signature s := by
  obtain ⟨-, -, -, -, -, -, hroutines⟩ := unitOf_ok hunit
  obtain ⟨routines, hsome, hf⟩ := List.mem_flatMap.1 hf
  have hok := hroutines routines (by simpa using hsome)
  obtain ⟨hto, hfrom⟩ := routines_ok hok
  simp only [List.mem_append, Option.mem_toList, List.mem_singleton] at hf
  rcases hf with (hf | hf) | rfl
  · exact ⟨Root.cudafy, by simp [Root.signatures], agrees_of_made hto hf⟩
  · exact ⟨Root.decudafy, by simp [Root.signatures], agrees_of_made hfrom hf⟩
  · rw [classToDevice_eq hok]
    exact ⟨Root.cudafy, by simp [Root.signatures], rfl, rfl⟩

/-- A class constructor takes and returns what the root's constructor does. -/
theorem agrees_of_classConstructor {c : Class} {f : FunctionDef}
    (hf : classConstructor c = some f) : Agrees f.signature Root.ctor := by
  unfold classConstructor at hf
  split at hf
  next => cases hf
  next =>
    cases hf
    exact ⟨rfl, rfl⟩

section Built

variable {b : Builder} {m : Module} {u : ClassUnit}

theorem storage_of_mem_globals (hb : b.WellFormed) (hbuild : b.build = .ok m) {v : Variable}
    (hv : v ∈ m.globals) : v.quals.storage = none := by
  obtain ⟨s⟩ := build_ok hbuild
  rw [s.globals, List.mem_append, List.mem_flatMap] at hv
  rcases hv with ⟨u, -, hv⟩ | hv
  · simp only [classVariables, List.mem_cons, List.not_mem_nil, or_false] at hv
    rcases hv with rfl | rfl <;> rfl
  · exact hb.stored v hv

/-- Neither the parameters nor the return type of a generated function have a storage class. -/
theorem plain_of_mem_generatedFunctions (hb : b.WellFormed) (hbuild : b.build = .ok m)
    (hu : u ∈ m.classes) {f : FunctionDef} (hf : f ∈ generatedFunctions u) : f.signature.Plain := by
  obtain ⟨s⟩ := build_ok hbuild
  obtain ⟨r, -, hunit⟩ := s.exists_unitOf hu
  obtain ⟨-, -, -, hctor, hinit, -, -⟩ := unitOf_ok hunit
  obtain ⟨-, hdelegators, hsupers⟩ := s.entries_eq hb.sound hu
  have hmade : ∀ e ∈ u.cls.introduced, e.signature.Plain :=
    fun e he => ((hb.built hbuild u hu).2 e (List.mem_filter.1 he).1).plain
  simp only [generatedFunctions, List.mem_append, Option.mem_toList, List.mem_singleton] at hf
  -- copy routines, the two kinds of entry points, the class constructor and the init routine
  rcases hf with (((hf | hf) | hf) | hf) | rfl
  · obtain ⟨t, ht, hagrees⟩ := agrees_of_mem_routinesOf hunit hf
    exact plain_of_agrees (Signature.made_of_mem_root ht).plain hagrees
  · obtain ⟨e, he, heq⟩ := List.mem_map.1 (hdelegators ▸ List.mem_map_of_mem hf)
    exact heq ▸ plain_delegator (hmade e he)
  · obtain ⟨e, he, heq⟩ := List.mem_map.1 (hsupers ▸ List.mem_map_of_mem hf)
    exact heq ▸ plain_superDelegator (hmade e he)
  · exact plain_of_agrees (Signature.made_of_mem_root (by simp [Root.signatures])).plain
      (agrees_of_classConstructor (hctor ▸ hf))
  · rw [hinit]
    exact ⟨by simp [initRoutine], rfl⟩

theorem atMostOne_of_mem_header (hb : b.WellFormed) (hbuild : b.build = .ok m) {i : Item}
    (hi : i ∈ header m) : i.AtMostOne := by
  obtain ⟨s⟩ := build_ok hbuild
  cases hdeclares : i.declares with
  | false =>
    refine Item.atMostOne_of_not_declares hdeclares ?_
    rintro text rfl
    -- the only plain lines of a header are those of the runtime
    have hlines : ∀ i ∈ runtimeItems, i.storages.length ≤ 1 := by decide +kernel
    exact .inl (hlines _ (line_mem_header s.kind hi))
  | true =>
    have hi : i ∈ declarations (header m) := List.mem_filter.2 ⟨hi, hdeclares⟩
    rw [declarations_header s.kind] at hi
    simp only [List.mem_append, List.mem_map, List.mem_flatMap] at hi
    -- typedefs, globals, functions, then what is declared for each class
    rcases hi with ((⟨t, ht, rfl⟩ | ⟨v, hv, rfl⟩) | ⟨f, hf, rfl⟩) | ⟨u, hu, hi⟩
    · rw [Module.typedefs, s.kind] at ht
      obtain ⟨u, hu, ht⟩ := List.mem_flatMap.1 ht
      rw [(s.entries_eq hb.sound hu).1] at ht
      obtain ⟨e, he, rfl⟩ := List.mem_map.1 ht
      have hplain : e.signature.Plain :=
        ((hb.built hbuild u hu).2 e (List.mem_filter.1 he).1).plain
      exact .inl (by simp [Item.storages_typedef hplain])
    · exact .inl (by simp [Item.storages_externVariable (storage_of_mem_globals hb hbuild hv)])
    · exact .inr ⟨_, rfl, (hb.declared f (s.functions ▸ hf)).1.plain⟩
    · obtain ⟨d, -, above, base, r, horigin, hunit⟩ := s.exists_origin hb.sound hu
      have hcls := (unitOf_ok hunit).1
      rcases List.mem_append.1 hi with hi | hi
      · have hstruct : ∀ f ∈ u.cls.object.fields, f.quals.storage = none :=
          hcls ▸ StructType.storage_of_layOut horigin.derives.object
        have hclassStruct : ∀ f ∈ u.cls.metaclass.fields, f.quals.storage = none :=
          hcls ▸ StructType.storage_of_layOut horigin.derives.metaclass
        rcases List.mem_pair.1 hi with rfl | rfl
        · exact .inl (by simp [Item.storages_struct hstruct])
        · exact .inl (by simp [Item.storages_struct hclassStruct])
      · obtain ⟨f, hf, rfl⟩ := List.mem_map.1 hi
        refine .inr ⟨_, rfl, plain_of_mem_generatedFunctions hb hbuild hu ?_⟩
        simp only [generatedFunctions, List.mem_append] at hf ⊢
        tauto

/-- Where the provisions of a class come from. -/
theorem exists_provides (hb : b.WellFormed) (hbuild : b.build = .ok m) (hu : u ∈ m.classes)
    {p : Provision} (hp : p ∈ u.provisions) :
    ∃ e ∈ u.cls.deviceSlots, e.signature.Plain ∧ Provides e p := by
  obtain ⟨s⟩ := build_ok hbuild
  obtain ⟨_, -, hunit⟩ := s.exists_unitOf hu
  obtain ⟨e, he, hprovides⟩ := exists_of_forall₂ (unitOf_provides hunit) hp
  refine ⟨e, he, ((hb.built hbuild u hu).2 e ?_).plain, hprovides⟩
  exact (List.mem_filter.1 (List.mem_filter.1 he).1).1

theorem atMostOne_of_mem_source (hb : b.WellFormed) (hbuild : b.build = .ok m) {i : Item}
    (hi : i ∈ source m) : i.AtMostOne := by
  obtain ⟨s⟩ := build_ok hbuild
  cases hdeclares : i.declares with
  | false =>
    refine Item.atMostOne_of_not_declares hdeclares ?_
    rintro text rfl
    have hlines : ∀ i ∈ checkItems, i.storages.length ≤ 1 := by decide +kernel
    exact .inl (hlines _ (line_mem_source hi))
  | true =>
    have hi : i ∈ declarations (source m) := List.mem_filter.2 ⟨hi, hdeclares⟩
    rw [declarations_source] at hi
    simp only [List.mem_append, List.mem_map, List.mem_flatMap] at hi
    rcases hi with (⟨v, hv, rfl⟩ | ⟨g, hg, rfl⟩) | ⟨u, hu, ⟨p, hp, rfl⟩ | ⟨f, hf, rfl⟩⟩
    · exact .inl (by simp [Item.storages_variable (storage_of_mem_globals hb hbuild hv)])
    · obtain ⟨f, hf, hg⟩ := List.mem_filterMap.1 hg
      obtain ⟨text, -, rfl⟩ := Option.map_eq_some_iff.1 hg
      exact Item.atMostOne_function (hb.declared f (s.functions ▸ hf)).1.plain
    · obtain ⟨e, -, hplain, hprovides⟩ := exists_provides hb hbuild hu hp
      cases hprovides with
      | external => exact .inr ⟨_, rfl, ⟨hplain.params, hplain.returns⟩⟩
      | verbatim => exact Item.atMostOne_function ⟨hplain.params, hplain.returns⟩
    · exact Item.atMostOne_function (plain_of_mem_generatedFunctions hb hbuild hu hf)

/-- The functions that a header declares as defined elsewhere are those of the module and, class by
class, the entry points and the init routine. -/
theorem externFunction_mem_header (hkind : m.kind = .user) {t : Signature} :
    .externFunction t ∈ header m ↔ (∃ f ∈ m.functions, f.signature = t) ∨
      ∃ u ∈ m.classes, ∃ f ∈ u.delegators ++ u.superDelegators ++ [u.init], f.signature = t := by
  have hdeclared : Item.externFunction t ∈ header m ↔
      Item.externFunction t ∈ declarations (header m) := by
    simp [declarations, Item.declares]
  have hclass : ∀ u, .externFunction t ∈ classDeclarations u ↔
      ∃ f ∈ u.delegators ++ u.superDelegators ++ [u.init], f.signature = t := by
    intro u
    rw [classDeclarations, List.mem_append, List.mem_map]
    simp only [List.mem_cons, reduceCtorEq, List.not_mem_nil, or_self, false_or,
      Item.externFunction.injEq]
  rw [hdeclared, declarations_header hkind]
  simp [hclass]

/-- The functions that a source declares as defined elsewhere are implementations. -/
theorem externFunction_mem_source {t : Signature} :
    .externFunction t ∈ source m ↔ ∃ u ∈ m.classes, .external t ∈ u.provisions := by
  have hdeclared : Item.externFunction t ∈ source m ↔
      Item.externFunction t ∈ declarations (source m) := by
    simp [declarations, Item.declares]
  have hprovision : ∀ p, provisionItem p = .externFunction t ↔ p = .external t := by
    intro p
    cases p <;> simp [provisionItem]
  rw [hdeclared, declarations_source]
  simp [hprovision]

/-- An entry that a class implements by a function from elsewhere has its provision. -/
theorem external_mem_provisions (hbuild : b.build = .ok m) (hu : u ∈ m.classes) {e : Method}
    (he : e ∈ u.cls.implemented)
    (hexternal : e.implementation.any (·.source == .external)) :
    ∃ symbol, .external { e.signature with name := symbol, role := .method } ∈ u.provisions := by
  obtain ⟨i, himpl, hsource⟩ := (Option.any_eq_true ..).1 hexternal
  have hslot : e ∈ u.cls.deviceSlots :=
    List.mem_filter.2 ⟨he, by simp [himpl, Implementation.isUsers, beq_iff_eq.1 hsource]⟩
  obtain ⟨s⟩ := build_ok hbuild
  obtain ⟨_, -, hunit⟩ := s.exists_unitOf hu
  obtain ⟨p, hp, hprovides⟩ := exists_of_forall₂ (unitOf_provides hunit).flip hslot
  cases hprovides with
  | @external symbol _ _ => exact ⟨symbol, hp⟩
  | verbatim himpl => simp [himpl] at hexternal

theorem init_plain (hb : b.WellFormed) (hbuild : b.build = .ok m) (hu : u ∈ m.classes) :
    u.init.signature.Plain ∧ u.init.signature.storage = none := by
  obtain ⟨s⟩ := build_ok hbuild
  obtain ⟨_, -, hunit⟩ := s.exists_unitOf hu
  obtain ⟨-, -, -, -, hinit, -, -⟩ := unitOf_ok hunit
  refine ⟨plain_of_mem_generatedFunctions hb hbuild hu (by simp [generatedFunctions]), ?_⟩
  rw [hinit]
  rfl

/-- The functions that the header and the source declare as defined elsewhere have no storage class
of their own if three kinds of functions have none. -/
theorem externFunctions_storage_iff (hb : b.WellFormed) (hbuild : b.build = .ok m) :
    (∀ t, .externFunction t ∈ header m ++ source m → t.storage = none) ↔
      (∀ f ∈ m.functions, f.signature.storage = none) ∧
      (∀ u ∈ m.classes, ∀ e ∈ u.cls.introduced, e.signature.storage = none) ∧
      ∀ u ∈ m.classes, ∀ e ∈ u.cls.implemented,
        e.implementation.any (·.source == .external) → e.signature.storage = none := by
  obtain ⟨s⟩ := build_ok hbuild
  constructor
  · intro hnone
    refine ⟨fun f hf => hnone _ ?_, fun u hu e he => ?_, fun u hu e he hexternal => ?_⟩
    · exact List.mem_append_left _ ((externFunction_mem_header s.kind).2 (.inl ⟨f, hf, rfl⟩))
    · obtain ⟨-, hdelegators, -⟩ := s.entries_eq hb.sound hu
      -- the delegator is declared with the qualifiers of the method it is made for
      obtain ⟨f, hf, hsignature⟩ := List.mem_map.1 (hdelegators ▸ List.mem_map_of_mem he)
      refine hnone e.delegator (List.mem_append_left _ ((externFunction_mem_header s.kind).2 ?_))
      exact .inr ⟨u, hu, f, by simp [hf], hsignature⟩
    · obtain ⟨symbol, hmem⟩ := external_mem_provisions hbuild hu he hexternal
      exact hnone { e.signature with name := symbol, role := .method }
        (List.mem_append_right _ (externFunction_mem_source.2 ⟨u, hu, hmem⟩))
  · rintro ⟨hfunctions, hintroduced, himplemented⟩ t ht
    rcases List.mem_append.1 ht with ht | ht
    · rcases (externFunction_mem_header s.kind).1 ht with ⟨f, hf, rfl⟩ | ⟨u, hu, f, hf, rfl⟩
      · exact hfunctions f hf
      · obtain ⟨-, hdelegators, hsupers⟩ := s.entries_eq hb.sound hu
        simp only [List.mem_append, List.mem_singleton] at hf
        rcases hf with (hf | hf) | rfl
        · obtain ⟨e, he, heq⟩ := List.mem_map.1 (hdelegators ▸ List.mem_map_of_mem hf)
          rw [← heq]
          exact hintroduced u hu e he
        · obtain ⟨e, he, heq⟩ := List.mem_map.1 (hsupers ▸ List.mem_map_of_mem hf)
          rw [← heq]
          exact hintroduced u hu e he
        · exact (init_plain hb hbuild hu).2
    · obtain ⟨u, hu, hp⟩ := externFunction_mem_source.1 ht
      obtain ⟨e, he, -, hprovides⟩ := exists_provides hb hbuild hu hp
      -- only what is implemented elsewhere is declared, and it keeps its storage class
      generalize hprovision : Provision.external t = p at hprovides
      cases hprovides with
      | external himpl =>
        cases hprovision
        exact himplemented u hu e (List.mem_filter.1 he).1 (by simp [himpl])
      | verbatim => cases hprovision

end Built

/-- The text of each piece of the header and the source opens with the keywords of the storage
classes in front. No variable of a module that is built has a storage class of its own: headers
declare each `extern`, sources define each with none. Init routines are declared `extern` and no
more. Any piece of the header or the source has at most one storage class, except where it declares
a function that has one itself as defined elsewhere: then it has two. So there is at most one
everywhere exactly if three kinds of functions have none: those that belong to no class, the methods
that the module's classes introduce, and the methods that they implement by functions from
elsewhere. -/
theorem storages_le_one_iff {b : Builder} {m : Module} (hb : b.Made) (hbuild : b.build = .ok m) :
    m.Writes (m.name ++ ".h") (header m) ∧ m.Writes (m.name ++ ".c") (source m) ∧
    (∀ i ∈ header m ++ source m, i.text
      = String.join (i.storagesInFront.map fun s => s.keyword ++ " ") ++ i.textBehind) ∧
    (∀ v ∈ m.globals, (Item.externVariable v).storages = [.external] ∧
      (Item.variable v).storages = []) ∧
    (∀ u ∈ m.classes, (Item.externFunction u.init.signature).storages = [.external]) ∧
    (∀ i ∈ header m ++ source m, i.storages.length ≤ 1 ∨
      ∃ t c, i = .externFunction t ∧ t.storage = some c ∧ i.storages = [.external, c]) ∧
    ((∀ i ∈ header m ++ source m, i.storages.length ≤ 1) ↔
      (∀ f ∈ m.functions, f.signature.storage = none) ∧
      (∀ u ∈ m.classes, ∀ e ∈ u.cls.introduced, e.signature.storage = none) ∧
      ∀ u ∈ m.classes, ∀ e ∈ u.cls.implemented,
        e.implementation.any (·.source == .external) → e.signature.storage = none) := by
  have hwell := hb.wellFormed
  have hone : ∀ i ∈ header m ++ source m, i.AtMostOne := fun i hi =>
    (List.mem_append.1 hi).elim (atMostOne_of_mem_header hwell hbuild)
      (atMostOne_of_mem_source hwell hbuild)
  obtain ⟨s⟩ := build_ok hbuild
  refine ⟨writes_header _, s.writes_source, fun i _ => i.text_eq_storagesInFront, fun v hv => ?_,
    fun u hu => ?_, fun i hi => ?_, ?_⟩
  · have hnone := storage_of_mem_globals hwell hbuild hv
    exact ⟨Item.storages_externVariable hnone, Item.storages_variable hnone⟩
  · obtain ⟨hplain, hnone⟩ := init_plain hwell hbuild hu
    rw [Item.storages_externFunction hplain, hnone]
    rfl
  · rcases hone i hi with hone | ⟨t, rfl, hplain⟩
    · exact .inl hone
    · rw [Item.storages_externFunction hplain]
      -- `extern` is always printed, so a storage class of its own makes two
      cases hstorage : t.storage with
      | none => exact .inl (by simp)
      | some c => exact .inr ⟨t, c, rfl, hstorage, rfl⟩
  · rw [← externFunctions_storage_iff hwell hbuild]
    constructor
    · exact fun hall t ht => (hone _ ht).length_le_one_iff.1 (hall _ ht) t rfl
    · exact fun hnone i hi => (hone i hi).length_le_one_iff.2 fun t heq => hnone t (heq ▸ hi)

namespace Sample

/-- A function that has a storage class, or none. -/
def reset (storage : Option Storage) : Signature :=
  { name := "reset", params := [], returns := .void, role := .free, storage }

/-- A method that another file implements. -/
def reading : MethodDef where
  signature := { name := "read", params := [Root.self], returns := { type := .int }, role := .method }
  supply := .external "read_meter"

/-- A class with the method, and the function. -/
def meter (storage : Option Storage) : Builder where
  config := { name := "meter" }
  drafts := [{ name := "Meter", methods := [reading] }]
  functions := ⟨[("reset", { signature := reset storage })]⟩

theorem made_meter {storage : Option Storage} (h : storage ≠ some .static) :
    (meter storage).Made := by
  have hreset : (reset storage).Made := by
    have hdeclare : Signature.declare "reset" [] .void .free = .ok (reset none) := rfl
    have hqualify : (reset none).qualify { storage } = .ok (reset storage) := by
      cases storage <;> rfl
    exact .qualify (.declare hdeclare) hqualify
  have hreading : reading.signature.Made := by
    have hdeclare : Signature.declare "read" [Root.self] { type := .int } .method
        = .ok reading.signature := rfl
    exact .declare hdeclare
  have hclass : Builder.Made { config := { name := "meter" }, drafts := (meter storage).drafts } :=
    .defineClass (.start _) (by simpa [Draft.Made, meter] using hreading)
  have hdeclare : Builder.declareFunction
      { config := { name := "meter" }, drafts := (meter storage).drafts }
      { signature := reset storage } .strict = .ok (meter storage) := by
    rcases storage with _ | (_ | _)
    · rfl
    · exact absurd rfl h
    · rfl
  exact .declareFunction hclass hreset hdeclare

theorem build_meter (storage : Option Storage) : ∃ m, (meter storage).build = .ok m ∧
    m.classes.map (·.name) = ["Meter"] ∧ m.functions = [{ signature := reset storage }] ∧
    (∀ u ∈ m.classes, ∀ e ∈ u.cls.introduced, e.signature.storage = none) ∧
    ∀ u ∈ m.classes, ∀ e ∈ u.cls.implemented,
      e.implementation.any (·.source == .external) → e.signature.storage = none := by
  have hscope : sortByName (meter storage).scope = [rootClass] :=
    List.mergeSort_singleton rootClass
  have hnames : ((meter storage).globals.names ++ (meter storage).functions.names).mergeSort
      (fun a b => !(b < a)) = ["reset"] := List.mergeSort_singleton _
  refine exists_of_any_toOption ?_
  rw [Builder.build, hscope]
  unfold Builder.checkUserNames
  dsimp only
  rw [hnames]
  rcases storage with _ | (_ | _) <;> decide +kernel

end Sample

theorem storages_le_one_iff_sample : (Sample.meter none).Made ∧
    ∃ m, (Sample.meter none).build = .ok m ∧ m.classes.map (·.name) = ["Meter"] ∧
      ∀ i ∈ header m ++ source m, i.storages.length ≤ 1 := by
  have hmade : (Sample.meter none).Made := Sample.made_meter (by simp)
  obtain ⟨m, hbuild, hclasses, hfunctions, hmethods⟩ := Sample.build_meter none
  obtain ⟨-, -, -, -, -, -, hiff⟩ := storages_le_one_iff hmade hbuild
  refine ⟨hmade, m, hbuild, hclasses, hiff.2 ⟨?_, hmethods⟩⟩
  simp [hfunctions, Sample.reset]

/-- A function that is declared with the storage class of functions from elsewhere gets it again in
the header. -/
theorem meter_extern_twice : (Sample.meter (some .external)).Made ∧
    ∃ m, (Sample.meter (some .external)).build = .ok m ∧
      .externFunction (Sample.reset (some .external)) ∈ header m ∧
      (Item.externFunction (Sample.reset (some .external))).storages = [.external, .external] ∧
      ∃ f ∈ filesOf m, f.name = "meter.h" ∧
        ∃ front back, f.text = front ++ "extern extern void reset(void);\n" ++ back := by
  obtain ⟨m, hbuild, -, hfunctions, -⟩ := Sample.build_meter (some .external)
  obtain ⟨s⟩ := build_ok hbuild
  have hmem : .externFunction (Sample.reset (some .external)) ∈ header m :=
    (externFunction_mem_header s.kind).2 (.inl (by simp [hfunctions]))
  have htext : (Item.externFunction (Sample.reset (some .external))).text
      = "extern extern void reset(void);\n" := by decide +kernel
  have hname : m.name ++ ".h" = "meter.h" := by
    rw [Module.name, s.config]
    rfl
  obtain ⟨f, hf, hfile, front, back, hfront⟩ := (writes_header m).exists_text_eq hmem
  exact ⟨Sample.made_meter (by simp), m, hbuild, hmem, rfl, f, hf, hfile.trans hname, front, back,
    htext ▸ hfront⟩

end Module

end ClassForge

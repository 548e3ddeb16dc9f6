import ClassForge.Proofs.Module.Clash
import ClassForge.Proofs.Module.Contents
import ClassForge.Proofs.Module.Made
import ClassForge.Proofs.Module.StructOrder
import Mathlib.Algebra.BigOperators.Group.List.Basic
import Mathlib.Data.List.Pairwise

/-!
# Names at file scope

At file scope C knows two name spaces: one for the tags of structs, and one for typedefs, variables
and functions. The names of a module come from what its author declares and, in several ways, from
the names of classes and methods. A build compares some of these kinds of names with each other.
`NameKind.keptApart` and `NameKind.distinct` say which; what they leave open is what can collide.
-/

namespace ClassForge

open C

/-! ## The names of a file -/

namespace Output

/-- The name that a piece of a file gives to a typedef, a variable or a function. -/
def Item.definedName? : Item → Option String
  | .typedef t => some t.name
  | .variable v => some v.name
  | .function f => some f.name
  | _ => none

/-- The names that a file gives to typedefs, variables and functions, in order. -/
def definedNames (items : List Item) : List String :=
  items.filterMap (·.definedName?)

section Pieces

variable {α : Type} {f : α → Item}

theorem definedNames_append (items items' : List Item) :
    definedNames (items ++ items') = definedNames items ++ definedNames items' :=
  List.filterMap_append

theorem definedNames_flatMap (g : α → List Item) (l : List α) :
    definedNames (l.flatMap g) = l.flatMap fun a => definedNames (g a) :=
  List.filterMap_flatMap

theorem definedNames_map {g : α → String} (h : ∀ a, (f a).definedName? = some (g a)) (l : List α) :
    definedNames (l.map f) = l.map g := by
  simp [definedNames, List.filterMap_map, h]

theorem definedNames_map_eq_nil (h : ∀ a, (f a).definedName? = none) (l : List α) :
    definedNames (l.map f) = [] := by
  simp [definedNames, h]

/-- Only what declares something defines a name. -/
theorem definedNames_declarations (items : List Item) :
    definedNames (declarations items) = definedNames items := by
  rw [definedNames, definedNames, declarations, List.filterMap_filter]
  refine List.filterMap_congr fun i _ => ?_
  cases i <;> rfl

end Pieces

/-- A header defines the typedefs of slots and no other names. -/
theorem definedNames_header {m : Module} (hkind : m.kind = .user) :
    definedNames (header m) = m.classes.flatMap fun u => u.typedefs.map (·.name) := by
  have hclass : ∀ u, definedNames (classDeclarations u) = [] := by
    intro u
    rw [classDeclarations, definedNames_append, definedNames_map_eq_nil fun _ => rfl]
    rfl
  have htypedefs : (m.typedefs).map (·.name)
      = m.classes.flatMap fun u => u.typedefs.map (·.name) := by
    rw [Module.typedefs, hkind, List.map_flatMap]
  have hnone : (m.classes.flatMap fun u => definedNames (classDeclarations u)) = [] :=
    List.flatMap_eq_nil_iff.2 fun u _ => hclass u
  rw [← definedNames_declarations, declarations_header hkind, definedNames_append,
    definedNames_append, definedNames_append, definedNames_flatMap, hnone,
    definedNames_map (f := Item.typedef) (g := Typedef.name) fun _ => rfl, htypedefs,
    definedNames_map_eq_nil fun _ => rfl, definedNames_map_eq_nil fun _ => rfl]
  simp only [List.append_nil]

/-- A source defines the module's globals and those of its functions that have a body, and class by
class the implementations and what is generated. -/
theorem definedNames_source (m : Module) :
    definedNames (source m) = m.globals.map (·.name)
      ++ (m.functions.filterMap (·.definition)).map (·.name)
      ++ m.classes.flatMap fun u => (u.definitions ++ generatedFunctions u).map (·.name) := by
  have hprovisions : ∀ u : Module.ClassUnit,
      definedNames (u.provisions.map provisionItem) = u.definitions.map (·.name) := by
    intro u
    rw [definedNames, Module.ClassUnit.definitions, List.filterMap_map, List.map_filterMap]
    refine List.filterMap_congr fun p _ => ?_
    cases p <;> rfl
  rw [← definedNames_declarations, declarations_source]
  simp only [definedNames_append, definedNames_flatMap, hprovisions, List.map_append,
    definedNames_map (f := Item.variable) (g := Variable.name) fun _ => rfl,
    definedNames_map (f := Item.function) (g := FunctionDef.name) fun _ => rfl]

end Output

/-! ## The names of a module -/

namespace Module

open ClassForge.Class Output

/-- The names of a module in the name space of typedefs, variables and functions: what the header
and the source define, and the functions that they only declare. Symbols of device code are left
out. -/
def ordinaryNames (m : Module) : List String :=
  definedNames (header m) ++ definedNames (source m)
    ++ (m.functions.filter (·.body.isNone)).map (·.signature.name)

/-- The tags of the structs that the header of a module defines, and the header of the object
runtime that it includes. -/
def tagNames (m : Module) : List String :=
  (definedStructs (header runtime) ++ definedStructs (header m)).map (·.name)

/-- The kinds of names at file scope that are no tags. -/
inductive NameKind where
  | slotType
  /-- The variables that hold class objects. -/
  | classObject
  /-- What the author of a module declares. -/
  | user
  /-- Delegators and super-delegators. -/
  | entryPoint
  /-- The bodies that authors write for methods, and the routines that copy objects. -/
  | implementation
  | classConstructor
  /-- The routines that copy class objects. -/
  | classCopy
  | init
deriving Repr, DecidableEq

namespace NameKind

/-- All kinds. -/
def all : List NameKind :=
  [slotType, classObject, user, entryPoint, implementation, classConstructor, classCopy, init]

/-- Whether no two names of a kind are equal in a module that is built. -/
def distinct : NameKind → Bool
  | user | entryPoint | classConstructor | classCopy | init => true
  | slotType | classObject | implementation => false

/-- The kinds that have no names in common in a module that is built. Users' names are compared with
three kinds of generated names, and three kinds of generated names end differently. -/
def apart : List (NameKind × NameKind) :=
  [(user, classObject), (user, entryPoint), (user, init), (slotType, classConstructor),
    (slotType, classCopy), (classConstructor, classCopy)]

/-- Whether two kinds may have names in common. -/
def mayMeet (k k' : NameKind) : Prop :=
  k ≠ k' ∧ (k, k') ∉ apart ∧ (k', k) ∉ apart

instance (k k' : NameKind) : Decidable (mayMeet k k') :=
  inferInstanceAs (Decidable (_ ∧ _ ∧ _))

end NameKind

/-- The functions that implement methods for a class in its source. -/
def implementationsOf (u : ClassUnit) : List FunctionDef :=
  u.definitions ++ u.routines.toList.flatMap fun r => r.toDevice.toList ++ r.fromDevice.toList

/-- The names of a kind in the module that a builder builds. -/
def namesOf (b : Builder) (m : Module) : NameKind → List String
  | .slotType => m.classes.flatMap fun u => u.typedefs.map (·.name)
  | .classObject => m.classes.flatMap fun u => (classVariables u).map (·.name)
  | .user => b.globals.names ++ b.functions.names
  | .entryPoint => m.classes.flatMap fun u => (u.delegators ++ u.superDelegators).map (·.name)
  | .implementation => m.classes.flatMap fun u => (implementationsOf u).map (·.name)
  | .classConstructor => m.classes.flatMap fun u => u.classConstructor.toList.map (·.name)
  | .classCopy => m.classes.flatMap fun u => u.routines.toList.map (·.classToDevice.name)
  | .init => m.classes.flatMap fun u => [u.init.name]

section Built

variable {b : Builder} {m : Module}

/-- A function has its name whether it is defined or only declared. -/
theorem count_functionNames (a : String) (fs : List Function) :
    ((fs.filterMap Function.definition).map (·.name)).count a
        + ((fs.filter (·.body.isNone)).map (·.signature.name)).count a
      = (fs.map (·.signature.name)).count a := by
  -- a function is defined in the source or, without a body, only declared in the header
  induction fs with
  | nil => rfl
  | cons f fs ih =>
    cases hbody : f.body with
    | none =>
      have hdefinition : f.definition = none := by rw [Function.definition, hbody, Option.map_none]
      rw [List.filterMap_cons_none hdefinition, List.filter_cons_of_pos (by rw [hbody]; rfl),
        List.map_cons, List.map_cons, List.count_cons, List.count_cons]
      omega
    | some text =>
      have hdefinition : f.definition = some ⟨f.signature, .verbatim text⟩ := by
        rw [Function.definition, hbody, Option.map_some]
      have hname : FunctionDef.name ⟨f.signature, .verbatim text⟩ = f.signature.name := rfl
      rw [List.filterMap_cons_some hdefinition, List.filter_cons_of_neg (by rw [hbody]; simp),
        List.map_cons, List.map_cons, List.count_cons, List.count_cons, hname]
      omega

/-- The names of a module are those of all kinds. -/
theorem ordinaryNames_perm (s : Stages b m) (hb : b.WellFormed) :
    (ordinaryNames m).Perm (NameKind.all.flatMap (namesOf b m)) := by
  rw [List.perm_iff_count]
  intro a
  -- class by class, the functions of the source are those of five of the kinds
  have hclasses : (m.classes.flatMap fun u =>
        u.definitions.map (·.name) ++ (generatedFunctions u).map (·.name)).count a
      = (namesOf b m .entryPoint).count a + (namesOf b m .implementation).count a
        + (namesOf b m .classConstructor).count a + (namesOf b m .classCopy).count a
        + (namesOf b m .init).count a := by
    simp only [namesOf, List.count_flatMap, ← List.sum_map_add]
    refine congrArg List.sum (List.map_congr_left fun u _ => ?_)
    cases hroutines : u.routines with
    | none =>
      simp [generatedFunctions, routinesOf, implementationsOf, hroutines]
      omega
    | some r =>
      simp [generatedFunctions, routinesOf, implementationsOf, hroutines, List.count_cons]
      omega
  have hfunctions : ((b.functions.items.filterMap (·.definition)).map (·.name)).count a
      + ((b.functions.items.filter (·.body.isNone)).map (·.signature.name)).count a
      = (b.functions.items.map (·.signature.name)).count a := count_functionNames a _
  have huser : b.functions.items.map (·.signature.name) = b.functions.names :=
    hb.functions.names_eq
  have hglobals : b.globals.items.map (·.name) = b.globals.names := hb.globals.names_eq
  rw [huser] at hfunctions
  simp only [ordinaryNames, definedNames_header s.kind, definedNames_source, s.globals, s.functions,
    List.map_append, List.count_append, hclasses, hglobals, NameKind.all, List.flatMap_cons,
    List.flatMap_nil, List.append_nil]
  simp only [namesOf, List.map_flatMap, List.count_append]
  omega

/-! ## What a build keeps apart -/

section Units

variable (s : Stages b m) {u : ClassUnit} (hu : u ∈ m.classes)
include s hu

theorem name_ne_rootObject : u.name ≠ Name.rootObject := by
  have hnames := s.toResolves.names_nodup
  rw [List.map_append, ← unitsOf_cls s.units] at hnames
  have hroot : rootClass ∈ b.scope := (addToScope_spec [rootClass] _).2.1 (List.mem_singleton_self _)
  intro heq
  refine List.disjoint_of_nodup_append hnames (List.mem_map_of_mem hroot) ?_
  rw [List.map_map]
  exact List.mem_map.2 ⟨u, hu, heq⟩

/-- What is generated for a class is named after it. -/
theorem generated_names :
    (∀ f ∈ u.classConstructor, f.name = Name.classConstructor u.name) ∧
      (∀ r ∈ u.routines, r.classToDevice.name = Name.classToDevice u.name) ∧
      u.init.name = Name.init u.name := by
  obtain ⟨r, hr, hunit⟩ := s.exists_unitOf hu
  obtain ⟨hcls, -, -, hctor, hinit, -, hroutines⟩ := unitOf_ok hunit
  rw [ClassUnit.name, hcls]
  refine ⟨fun f hf => ?_, fun routines hsome => ?_, ?_⟩
  · rw [hctor, Option.mem_def, classConstructor] at hf
    split at hf
    next => cases hf
    next =>
      cases hf
      rfl
  · rw [classToDevice_eq (hroutines routines hsome)]
    rfl
  · rw [hinit]
    rfl

theorem exists_typedef (himports : ∀ c ∈ b.imports, c.Sound) {n : String}
    (hn : n ∈ u.typedefs.map (·.name)) : ∃ method, n = Name.typedef u.name method := by
  rw [(s.entries_eq himports hu).1, List.map_map] at hn
  obtain ⟨e, he, rfl⟩ := List.mem_map.1 hn
  refine ⟨e.name, ?_⟩
  rw [Function.comp_apply, Method.typedef, beq_iff_eq.1 (List.mem_filter.1 he).2]
  rfl

end Units

/-- Names that are made from those of classes, one for each class at most, are different. -/
theorem nodup_of_unitNames (s : Stages b m) {f : ClassUnit → List String} {g : String → String}
    (hname : ∀ u ∈ m.classes, ∀ n ∈ f u, n = g u.name) (hone : ∀ u, (f u).length ≤ 1)
    (hinj : ∀ u ∈ m.classes, ∀ v ∈ m.classes, g u.name = g v.name → u.name = v.name) :
    (m.classes.flatMap f).Nodup := by
  refine List.nodup_flatMap.2 ⟨fun u _ => ?_, ?_⟩
  · match f u, hone u with
    | [], _ => exact List.nodup_nil
    | [n], _ => exact List.nodup_singleton n
  · apply (List.pairwise_map.1 (s.unitNames_nodup)).imp_of_mem
    intro u v hu hv hne n hn hn'
    exact hne (hinj u hu v hv ((hname u hu n hn).symm.trans (hname v hv n hn')))

theorem namesOf_nodup (s : Stages b m) (hb : b.WellFormed) {k : NameKind} (hk : k.distinct = true) :
    (namesOf b m k).Nodup := by
  cases k with
  | user => exact hb.globals.distinct.append hb.functions.distinct hb.disjoint
  | entryPoint => exact s.entryNames_nodup hb.lineage
  -- for the last three kinds each class has at most one name, made from its own
  | classConstructor =>
    refine nodup_of_unitNames s (g := Name.classConstructor) (fun u hu n hn => ?_) (fun u => ?_)
      fun u hu v hv => (Name.classConstructor_inj (name_ne_rootObject s hu)
        (name_ne_rootObject s hv)).1
    · obtain ⟨f, hf, rfl⟩ := List.mem_map.1 hn
      exact (generated_names s hu).1 f (Option.mem_toList.1 hf)
    · rw [List.length_map]
      exact Option.length_toList_le
  | classCopy =>
    refine nodup_of_unitNames s (g := Name.classToDevice) (fun u hu n hn => ?_) (fun u => ?_)
      fun u hu v hv => (Name.classToDevice_inj (name_ne_rootObject s hu)
        (name_ne_rootObject s hv)).1
    · obtain ⟨r, hr, rfl⟩ := List.mem_map.1 hn
      exact (generated_names s hu).2.1 r (Option.mem_toList.1 hr)
    · rw [List.length_map]
      exact Option.length_toList_le
  | init =>
    refine nodup_of_unitNames s (g := Name.init) (fun u hu n hn => ?_) (fun u => Nat.le_refl _)
      fun u _ v _ => Name.init_inj.1
    rw [List.mem_singleton.1 hn]
    exact (generated_names s hu).2.2
  | _ => cases hk

theorem namesOf_disjoint (s : Stages b m) (hb : b.WellFormed) :
    ∀ p ∈ NameKind.apart, (namesOf b m p.1).Disjoint (namesOf b m p.2) := by
  have huser := Builder.checkUserNames_eq_ok.1 s.userNames
  -- three pairs of kinds are told apart by how the names end, the others by the check of users'
  -- names
  have hslot : ∀ n ∈ namesOf b m .slotType, ∃ cls method,
      cls ≠ Name.rootObject ∧ n = Name.typedef cls method := by
    intro n hn
    obtain ⟨u, hu, hn⟩ := List.mem_flatMap.1 hn
    obtain ⟨method, hmethod⟩ := exists_typedef s hu hb.sound hn
    exact ⟨u.name, method, name_ne_rootObject s hu, hmethod⟩
  have hctor : ∀ n ∈ namesOf b m .classConstructor, ∃ cls, n = Name.classConstructor cls := by
    intro n hn
    obtain ⟨u, hu, hn⟩ := List.mem_flatMap.1 hn
    obtain ⟨f, hf, rfl⟩ := List.mem_map.1 hn
    exact ⟨u.name, (generated_names s hu).1 f (Option.mem_toList.1 hf)⟩
  have hcopy : ∀ n ∈ namesOf b m .classCopy, ∃ cls, n = Name.classToDevice cls := by
    intro n hn
    obtain ⟨u, hu, hn⟩ := List.mem_flatMap.1 hn
    obtain ⟨r, hr, rfl⟩ := List.mem_map.1 hn
    exact ⟨u.name, (generated_names s hu).2.1 r (Option.mem_toList.1 hr)⟩
  simp only [NameKind.apart, List.forall_mem_cons]
  refine ⟨fun n hn hn' => huser n hn ?_, fun n hn hn' => huser n hn ?_,
    fun n hn hn' => huser n hn ?_,
    fun n hn hn' => ?_, fun n hn hn' => ?_, fun n hn hn' => ?_, by simp⟩
  · refine List.mem_append_left _ (List.mem_append_left _ ?_)
    rwa [List.map_flatMap]
  · refine List.mem_append_left _ (List.mem_append_right _ ?_)
    obtain ⟨u, hu, hn'⟩ := List.mem_flatMap.1 hn'
    -- the check knows entry points as the names that have owners
    rw [s.toResolves.mem_owners_names hb.lineage s.inherits s.claims]
    exact ⟨u.cls, s.cls_mem hu, (s.entryNames_perm hb.lineage hu).subset hn'⟩
  · refine List.mem_append_right _ ?_
    rwa [List.map_eq_flatMap]
  · obtain ⟨cls, method, hcls, rfl⟩ := hslot n hn
    obtain ⟨cls', heq⟩ := hctor _ hn'
    exact Name.typedef_ne_classConstructor hcls method cls' heq
  · obtain ⟨cls, method, hcls, rfl⟩ := hslot n hn
    obtain ⟨cls', heq⟩ := hcopy _ hn'
    exact Name.typedef_ne_classToDevice hcls method cls' heq
  · obtain ⟨cls, rfl⟩ := hctor n hn
    obtain ⟨cls', heq⟩ := hcopy _ hn'
    exact Name.classConstructor_ne_classToDevice cls cls' heq

/-- All names differ if those of each kind do and no two kinds share one. -/
theorem ordinaryNames_nodup_iff (s : Stages b m) (hb : b.WellFormed) :
    (ordinaryNames m).Nodup ↔ (∀ k, (namesOf b m k).Nodup) ∧
      ∀ k k', k ≠ k' → (namesOf b m k).Disjoint (namesOf b m k') := by
  have hall : ∀ k, k ∈ NameKind.all := by
    intro k
    cases k <;> decide
  have hkinds : NameKind.all.Nodup := by decide
  have hsymm : Std.Symm (Function.onFun List.Disjoint (namesOf b m)) :=
    ⟨fun _ _ h => List.disjoint_symm h⟩
  rw [(ordinaryNames_perm s hb).nodup_iff, List.nodup_flatMap]
  refine and_congr ⟨fun h k => h k (hall k), fun h k _ => h k⟩ ⟨fun h k k' hne => ?_, fun h => ?_⟩
  · exact h.forall (hall k) (hall k') hne
  · exact hkinds.pairwise_of_forall_ne fun k _ k' _ => h k k'

/-! ## Tags -/

/-- A class's structs are named after it. -/
theorem tags_eq (s : Stages b m) (himports : ∀ c ∈ b.imports, c.Sound) {u : ClassUnit}
    (hu : u ∈ m.classes) : u.cls.tags = [u.name, Name.metaclass u.name] := by
  obtain ⟨d, -, above, base, r, horigin, hunit⟩ := s.exists_origin himports hu
  rw [ClassUnit.name, (unitOf_ok hunit).1, horigin.derives.tags_eq, horigin.derives.name]
  rfl

theorem tagNames_perm (s : Stages b m) (himports : ∀ c ∈ b.imports, c.Sound) :
    (tagNames m).Perm ([Name.rootObject, Name.rootMetaclass]
      ++ (m.classes.map (·.name) ++ m.classes.map fun u => Name.metaclass u.name)) := by
  have hruntime : (definedStructs (header runtime)).map (·.name)
      = [Name.rootObject, Name.rootMetaclass] := by decide
  have hclasses : (definedStructs (header m)).map (·.name)
      = m.classes.flatMap fun u => [u.name] ++ [Name.metaclass u.name] := by
    rw [definedStructs_header s.kind, List.map_flatMap]
    exact List.flatMap_congr fun u hu => tags_eq s himports hu
  rw [tagNames, List.map_append, hruntime, hclasses, List.map_eq_flatMap, List.map_eq_flatMap]
  exact (List.flatMap_append_perm ..).symm.append_left _

/-- Class structs of different classes have different tags. -/
theorem metaclassNames_nodup (s : Stages b m) :
    (m.classes.map fun u => Name.metaclass u.name).Nodup := by
  have hmap : (m.classes.map fun u => Name.metaclass u.name)
      = (m.classes.map (·.name)).map Name.metaclass := by
    rw [List.map_map]
    rfl
  rw [hmap]
  refine s.unitNames_nodup.map_on fun n hn n' hn' heq => ?_
  obtain ⟨u, hu, rfl⟩ := List.mem_map.1 hn
  obtain ⟨v, hv, rfl⟩ := List.mem_map.1 hn'
  exact (Name.metaclass_inj (name_ne_rootObject s hu) (name_ne_rootObject s hv)).1 heq

/-- Tags differ unless a class has the name of a class struct. -/
theorem tagNames_nodup_iff (s : Stages b m) (himports : ∀ c ∈ b.imports, c.Sound) :
    (tagNames m).Nodup ↔ (∀ u ∈ m.classes, ∀ v ∈ m.classes, u.name ≠ v.cls.metaclass.name) ∧
      ∀ u ∈ m.classes, Name.rootMetaclass ∉ u.cls.tags := by
  have htags : ∀ u ∈ m.classes, u.cls.tags = [u.name, Name.metaclass u.name] :=
    fun u hu => tags_eq s himports hu
  have hmetaclass : ∀ v ∈ m.classes, v.cls.metaclass.name = Name.metaclass v.name := fun v hv =>
    (List.cons.inj (List.cons.inj (htags v hv)).2).1
  rw [(tagNames_perm s himports).nodup_iff, List.nodup_append', List.nodup_append']
  constructor
  · rintro ⟨-, ⟨-, -, hmeet⟩, hroot⟩
    refine ⟨fun u hu v hv heq => ?_, fun u hu hmem => ?_⟩
    · refine hmeet (List.mem_map_of_mem hu) (List.mem_map.2 ⟨v, hv, ?_⟩)
      rw [heq, hmetaclass v hv]
    · rw [htags u hu, List.mem_pair] at hmem
      refine hroot (List.mem_pair.2 (.inr rfl)) (List.mem_append.2 ?_)
      exact hmem.imp (fun heq => List.mem_map.2 ⟨u, hu, heq.symm⟩)
        fun heq => List.mem_map.2 ⟨u, hu, heq.symm⟩
  · rintro ⟨hmeet, hroot⟩
    refine ⟨by decide, ⟨s.unitNames_nodup, metaclassNames_nodup s, fun n hn hn' => ?_⟩,
      fun n hn hn' => ?_⟩
    · obtain ⟨u, hu, rfl⟩ := List.mem_map.1 hn
      obtain ⟨v, hv, heq⟩ := List.mem_map.1 hn'
      exact hmeet u hu v hv (heq.symm.trans (hmetaclass v hv).symm)
    · -- the root's object struct has a tag that no class gives, its class struct one that none has
      rcases List.mem_pair.1 hn with rfl | rfl <;> rcases List.mem_append.1 hn' with hn' | hn' <;>
        obtain ⟨u, hu, heq⟩ := List.mem_map.1 hn'
      · exact name_ne_rootObject s hu heq
      · exact Name.metaclass_ne_rootObject u.name heq
      · exact hroot u hu (by simp [htags u hu, heq])
      · exact hroot u hu (by simp [htags u hu, heq])

end Built

/-- The names that the header and the source of a module define are of eight kinds. In a module that
is built no two names of a kind are equal for the kinds that `NameKind.distinct` lists, and no two
kinds of `NameKind.apart` share a name. So all names differ exactly if the names of the other kinds
do, and no two of the other pairs of kinds share one. Tags differ exactly if no class has the name
of a class struct, whether of the module or of the root. -/
theorem fileScope_nodup_iff {b : Builder} {m : Module} (hb : b.Made) (hbuild : b.build = .ok m) :
    m.Writes (m.name ++ ".h") (header m) ∧ m.Writes (m.name ++ ".c") (source m) ∧
    (∀ k : NameKind, k.distinct = true → (namesOf b m k).Nodup) ∧
    (∀ p ∈ NameKind.apart, (namesOf b m p.1).Disjoint (namesOf b m p.2)) ∧
    ((ordinaryNames m).Nodup ↔
      (∀ k : NameKind, k.distinct = false → (namesOf b m k).Nodup) ∧
      ∀ k k' : NameKind, k.mayMeet k' → (namesOf b m k).Disjoint (namesOf b m k')) ∧
    ((tagNames m).Nodup ↔
      (∀ u ∈ m.classes, ∀ v ∈ m.classes, u.name ≠ v.cls.metaclass.name) ∧
      ∀ u ∈ m.classes, Name.rootMetaclass ∉ u.cls.tags) := by
  have hwell := hb.wellFormed
  obtain ⟨s⟩ := build_ok hbuild
  have hdistinct : ∀ k : NameKind, k.distinct = true → (namesOf b m k).Nodup :=
    fun _ => namesOf_nodup s hwell
  have hapart := namesOf_disjoint s hwell
  refine ⟨writes_header _, s.writes_source, hdistinct, hapart, ?_, tagNames_nodup_iff s hwell.sound⟩
  rw [ordinaryNames_nodup_iff s hwell]
  constructor
  · -- the kinds that are not listed are all that is left to ask for
    rintro ⟨hnodup, hdisjoint⟩
    exact ⟨fun k _ => hnodup k, fun k k' hmeet => hdisjoint k k' hmeet.1⟩
  · rintro ⟨hnodup, hdisjoint⟩
    refine ⟨fun k => ?_, fun k k' hne => ?_⟩
    · cases hk : k.distinct with
      | true => exact hdistinct k hk
      | false => exact hnodup k hk
    · by_cases hfirst : (k, k') ∈ NameKind.apart
      · exact hapart _ hfirst
      by_cases hsecond : (k', k) ∈ NameKind.apart
      · exact List.disjoint_symm (hapart _ hsecond)
      exact hdisjoint k k' ⟨hne, hfirst, hsecond⟩

namespace Sample

/-- A method that its class brings the body of. -/
def stepping : MethodDef where
  signature := { name := "step", params := [Root.self], returns := .void, role := .method }
  supply := .verbatim ""

/-- A class with the method, and a function of any name. -/
def compartment (function : String) : Builder where
  config := { name := "cells" }
  drafts := [{ name := "Compartment", methods := [stepping] }]
  functions := ⟨[(function,
    { signature := { name := function, params := [], returns := .void, role := .free } })]⟩

/-- A name that nothing generated has, and that of the class's implementation. -/
def functionNames : List String := ["reset", "Compartment_step"]

theorem made_compartment : ∀ function ∈ functionNames, (compartment function).Made := by
  have hstepping : stepping.signature.Made := by
    have hdeclare : Signature.declare "step" [Root.self] .void .method
        = .ok stepping.signature := rfl
    exact .declare hdeclare
  intro function hfunction
  have hdeclare : Signature.declare function [] .void .free
      = .ok { name := function, params := [], returns := .void, role := .free } := by
    rcases List.mem_pair.1 hfunction with rfl | rfl <;> rfl
  have hclass : Builder.Made
      { config := { name := "cells" }, drafts := (compartment function).drafts } :=
    .defineClass (.start _) (by simpa [Draft.Made, compartment] using hstepping)
  have hfunction : Builder.declareFunction
      { config := { name := "cells" }, drafts := (compartment function).drafts }
      { signature := { name := function, params := [], returns := .void, role := .free } } .strict
      = .ok (compartment function) := rfl
  exact .declareFunction hclass (.declare hdeclare) hfunction

theorem build_compartment : ∀ function ∈ functionNames,
    ∃ m, (compartment function).build = .ok m ∧
      ordinaryNames m = ["Compartment_step_t", "Compartment", "CompartmentClass",
        "Compartment_step", "step", "super_step", "CompartmentClass_ctor", "initCompartment",
        function] ∧
      (∀ u ∈ m.classes, ∀ v ∈ m.classes, u.name ≠ v.cls.metaclass.name) ∧
      ∀ u ∈ m.classes, Name.rootMetaclass ∉ u.cls.tags := by
  intro function hfunction
  have hscope : sortByName (compartment function).scope = [rootClass] :=
    List.mergeSort_singleton rootClass
  have hnames : ((compartment function).globals.names
      ++ (compartment function).functions.names).mergeSort (fun a b => !(b < a)) = [function] :=
    List.mergeSort_singleton _
  refine exists_of_any_toOption ?_
  rw [Builder.build, hscope]
  unfold Builder.checkUserNames
  dsimp only
  rw [hnames]
  rcases List.mem_pair.1 hfunction with rfl | rfl <;> decide +kernel

end Sample

theorem fileScope_nodup_iff_sample : (Sample.compartment "reset").Made ∧
    ∃ m, (Sample.compartment "reset").build = .ok m ∧ (tagNames m).Nodup ∧ (ordinaryNames m).Nodup ∧
      (namesOf (Sample.compartment "reset") m .user).Disjoint
        (namesOf (Sample.compartment "reset") m .implementation) := by
  have hmade := Sample.made_compartment "reset" (by simp [Sample.functionNames])
  obtain ⟨m, hbuild, hnames, htags⟩ :=
    Sample.build_compartment "reset" (by simp [Sample.functionNames])
  have hnodup : (ordinaryNames m).Nodup := by
    rw [hnames]
    decide
  obtain ⟨-, -, -, -, hordinary, htagNames⟩ := fileScope_nodup_iff hmade hbuild
  refine ⟨hmade, m, hbuild, htagNames.2 htags, hnodup, ?_⟩
  exact (hordinary.1 hnodup).2 .user .implementation (by decide)

/-- A function of the name of an implementation: the header declares the function, and the source
defines the implementation. -/
theorem compartment_step_twice : (Sample.compartment "Compartment_step").Made ∧
    ∃ m, (Sample.compartment "Compartment_step").build = .ok m ∧
      (ordinaryNames m).count "Compartment_step" = 2 ∧ ¬ (ordinaryNames m).Nodup := by
  obtain ⟨m, hbuild, hnames, -⟩ :=
    Sample.build_compartment "Compartment_step" (by simp [Sample.functionNames])
  refine ⟨Sample.made_compartment _ (by simp [Sample.functionNames]), m, hbuild, ?_, ?_⟩
  all_goals
    rw [hnames]
    decide

end Module

end ClassForge

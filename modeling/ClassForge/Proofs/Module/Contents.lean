import ClassForge.Output.File

/-!
# What files declare

Between directives, blank lines and fixed text the files of a module declare and define types,
variables and functions. These are the declarations of a file, in order: those of the module first,
then those of its classes, class by class.
-/

namespace ClassForge.Output

open C ClassForge.Module

/-- Whether a piece of a file declares a typedef, a struct in full, a variable or a function. -/
def Item.declares : Item → Bool
  | .typedef _ | .struct _ | .externVariable _ | .variable _ | .externFunction _
  | .function _ => true
  | _ => false

/-- The pieces of a file that declare something, in order. -/
def declarations (items : List Item) : List Item :=
  items.filter (·.declares)

section Pieces

variable {α : Type} {f : α → Item}

theorem declarations_append (items items' : List Item) :
    declarations (items ++ items') = declarations items ++ declarations items' :=
  List.filter_append ..

theorem declarations_flatMap (g : α → List Item) (l : List α) :
    declarations (l.flatMap g) = l.flatMap fun a => declarations (g a) :=
  List.filter_flatMap

theorem declarations_map (h : ∀ a, (f a).declares = true) (l : List α) :
    declarations (l.map f) = l.map f := by
  simp [declarations, h]

theorem declarations_map_eq_nil (h : ∀ a, (f a).declares = false) (l : List α) :
    declarations (l.map f) = [] := by
  simp [declarations, h]

theorem declarations_paragraph (items : List Item) :
    declarations (paragraph items) = declarations items := by
  unfold paragraph
  split
  next hempty => rw [List.isEmpty_iff.1 hempty]
  next =>
    rw [declarations_append]
    exact List.append_nil _

/-- Only the definition counts of a definition and the blank line behind it. -/
theorem declarations_functionItems (fs : List FunctionDef) :
    declarations (fs.flatMap functionItems) = fs.map .function := by
  rw [declarations_flatMap, List.map_eq_flatMap]
  rfl

end Pieces

/-! ## Headers -/

/-- What a header declares for a class: its structs and its public functions. -/
def classDeclarations (u : ClassUnit) : List Item :=
  [.struct u.cls.object, .struct u.cls.metaclass]
    ++ (u.delegators ++ u.superDelegators ++ [u.init]).map (.externFunction ·.signature)

theorem declarations_classItems (u : ClassUnit) :
    declarations (classItems u) = classDeclarations u := by
  have hexterns : ∀ fs : List FunctionDef,
      declarations (fs.map (.externFunction ·.signature)) = fs.map (.externFunction ·.signature) :=
    declarations_map fun _ => rfl
  simp only [classItems, classDeclarations, declarations_append, hexterns, List.map_append,
    List.map_singleton, ← List.append_assoc]
  rfl

/-- The header of a module declares the typedefs of slots, the globals and functions, and what its
classes need. -/
theorem declarations_header {m : Module} (hkind : m.kind = .user) :
    declarations (header m) = m.typedefs.map .typedef ++ m.globals.map .externVariable
      ++ m.functions.map (fun f => .externFunction f.signature)
      ++ m.classes.flatMap classDeclarations := by
  have hincludes : declarations (includeItems m) = [] := by
    simp only [includeItems, declarations_append, declarations_paragraph,
      declarations_map_eq_nil (f := Item.includeLibrary) fun _ => rfl,
      declarations_map_eq_nil (f := Item.includeLocal) fun _ => rfl]
    rfl
  have htypedefs : declarations (typedefItems m) = m.typedefs.map .typedef := by
    simp only [typedefItems, hkind, reduceCtorEq, if_false, List.nil_append,
      declarations_paragraph, declarations_map (f := Item.typedef) fun _ => rfl]
  have hforward : declarations (forwardItems m) = [] := by
    simp only [forwardItems, hkind, declarations_flatMap]
    exact List.flatMap_eq_nil_iff.2 fun _ _ => rfl
  have hexterns : declarations (externItems m) = m.globals.map .externVariable
      ++ m.functions.map (fun f => .externFunction f.signature) := by
    simp only [externItems, declarations_append, declarations_paragraph,
      declarations_map (f := Item.externVariable) fun _ => rfl,
      declarations_map (f := fun f : Function => Item.externFunction f.signature) fun _ => rfl]
  have hruntime : declarations runtimeItems = [] := by
    decide
  have hdefinitions : declarations (definitionItems m) = m.classes.flatMap classDeclarations := by
    simp only [definitionItems, hkind, declarations_flatMap, declarations_classItems]
  have hguard : header m = [.guard (m.config.guard "H")] ++ includeItems m ++ typedefItems m
      ++ forwardItems m ++ externItems m ++ runtimeItems ++ definitionItems m ++ [.endIf] := rfl
  simp only [hguard, declarations_append, hincludes, htypedefs, hforward, hexterns, hruntime,
    hdefinitions, List.append_nil, ← List.append_assoc]
  exact List.append_nil _

/-! ## Sources -/

/-- The copy routines of a class. -/
def routinesOf (u : ClassUnit) : List FunctionDef :=
  u.routines.toList.flatMap fun r => r.toDevice.toList ++ r.fromDevice.toList ++ [r.classToDevice]

/-- What a source has for an implementation: its declaration or its definition. -/
def provisionItem : Provision → Item
  | .external s => .externFunction s
  | .definition f => .function f

/-- The functions that are generated for a class, apart from its implementations. -/
def generatedFunctions (u : ClassUnit) : List FunctionDef :=
  routinesOf u ++ u.delegators ++ u.superDelegators ++ u.classConstructor.toList ++ [u.init]

theorem declarations_implementationItems (u : ClassUnit) :
    declarations (implementationItems u)
      = u.provisions.map provisionItem ++ (routinesOf u).map .function := by
  have hitem : ∀ p, declarations (provisionItems p) = [provisionItem p] := by
    intro p
    cases p <;> rfl
  have hprovisions : declarations (u.provisions.flatMap provisionItems)
      = u.provisions.map provisionItem := by
    simp only [declarations_flatMap, hitem, List.map_eq_flatMap]
  have hroutines : declarations (u.routines.toList.flatMap routineItems)
      = (routinesOf u).map .function := by
    rw [routinesOf, ← declarations_functionItems, List.flatMap_assoc]
    rfl
  unfold implementationItems
  split
  next hnone =>
    rw [Bool.and_eq_true, List.isEmpty_iff, Option.isNone_iff_eq_none] at hnone
    rw [routinesOf, hnone.1, hnone.2]
    rfl
  next =>
    rw [← hprovisions, ← hroutines, ← declarations_append]
    rfl

theorem declarations_entryItems (u : ClassUnit) :
    declarations (entryItems u) = (u.delegators ++ u.superDelegators).map .function := by
  unfold entryItems
  split
  next hnone =>
    rw [ClassUnit.delegators, ClassUnit.superDelegators, List.isEmpty_iff.1 hnone]
    rfl
  next =>
    rw [List.map_append, ← declarations_functionItems, ← declarations_functionItems,
      ← declarations_append]
    rfl

theorem declarations_startupItems (u : ClassUnit) :
    declarations (startupItems u) = (u.classConstructor.toList ++ [u.init]).map .function := by
  rw [← declarations_functionItems, List.flatMap_append, List.flatMap_singleton]
  rfl

/-- Between them the section of a class has titles and blank lines only. -/
theorem not_mem_classSection {i : Item} (hdeclares : i.declares = false) (hblank : i ≠ .blank)
    (hbanner : ∀ title, i ≠ .banner title) (u : ClassUnit) : i ∉ classSection u := by
  -- items of a class declare something, or they are blank lines and banners
  have hfunction : ∀ f, i ≠ .function f := by
    rintro f rfl
    cases hdeclares
  have hextern : ∀ s, i ≠ .externFunction s := by
    rintro s rfl
    cases hdeclares
  have hprovision : ∀ p, i ∉ provisionItems p := by
    intro p
    cases p <;> simp [provisionItems, functionItems, hfunction, hextern, hblank]
  have hroutine : ∀ r, i ∉ routineItems r := by
    simp [routineItems, functionItems, hfunction, hblank]
  simp [classSection, implementationItems, entryItems, startupItems, functionItems, hprovision,
    hroutine, hfunction, hblank, hbanner]

/-- The source of a module defines its globals and those functions that have a body. For each class
it has the implementations and the generated functions. -/
theorem declarations_source (m : Module) :
    declarations (source m) = m.globals.map .variable
      ++ (m.functions.filterMap (·.definition)).map .function
      ++ m.classes.flatMap fun u =>
        u.provisions.map provisionItem ++ (generatedFunctions u).map .function := by
  have hprelude : declarations (preludeItems m) = [] := by
    unfold preludeItems
    split <;> rfl
  have hglobals : declarations (globalItems m) = m.globals.map .variable
      ++ (m.functions.filterMap (·.definition)).map .function := by
    -- handles of device classes are no declarations of the module
    have hdevice : declarations (if m.hasDeviceCode then
        .ifDefined Device.deviceSymbol
          :: m.deviceClasses.flatMap (fun u => (handles u.cls).map .device)
          ++ [.endIf, .blank] else []) = [] := by
      split
      next =>
        have hhandles : declarations (m.deviceClasses.flatMap fun u => (handles u.cls).map .device)
            = [] := by
          rw [declarations_flatMap]
          exact List.flatMap_eq_nil_iff.2 fun u _ => declarations_map_eq_nil (fun _ => rfl) _
        rw [← List.singleton_append, declarations_append, declarations_append, hhandles]
        rfl
      next => rfl
    rw [globalItems, declarations_append, declarations_append, declarations_append,
      declarations_map fun _ => rfl, hdevice, declarations_functionItems]
    simp [declarations, Item.declares]
  have hclasses : ∀ u, declarations (classSection u)
      = u.provisions.map provisionItem ++ (generatedFunctions u).map .function := by
    intro u
    simp only [classSection, declarations_append, declarations_implementationItems,
      declarations_entryItems, declarations_startupItems, generatedFunctions, List.map_append,
      List.append_assoc]
  simp only [source, declarations_append, hprelude, hglobals, declarations_flatMap, hclasses,
    List.nil_append]

end ClassForge.Output

import ClassForge.Class.Order
import ClassForge.Module.Basic
import ClassForge.Module.Declarations

/-!
# Building a module

A `Builder` collects drafts, imported classes, globals and functions. Building resolves the drafts
in an order in which each follows the class it extends, checks that no two classes introduce one
public function, and generates what the classes need.
-/

namespace ClassForge.Module

open C ClassForge.Class

/-- A module under construction. -/
structure Builder where
  config : Config
  drafts : List Draft := []
  imports : List Class := []
  globals : Declarations Variable := {}
  functions : Declarations Function := {}
deriving Repr

namespace Builder

def defineClass (b : Builder) (d : Draft) : Builder :=
  { b with drafts := b.drafts ++ [d] }

/-- The builder with a class of another module more. -/
def importClass (b : Builder) (c : Class) : Builder :=
  { b with imports := b.imports ++ [c] }

def declareGlobal (b : Builder) (v : Variable) (policy : Policy) :
    Except ModelError Builder := do
  ModelError.ofType (v.checkStorable "global")
  if b.functions.contains v.name then throw (.duplicateDeclaration b.config.name v.name)
  let globals ← b.globals.declare b.config.name v.name v policy
  return { b with globals }

def declareFunction (b : Builder) (f : Function) (policy : Policy) :
    Except ModelError Builder := do
  -- the header declares every function, so none is private to the source file
  if f.signature.storage = some .static then throw (.staticFunction f.signature.name)
  if b.globals.contains f.signature.name then
    throw (.duplicateDeclaration b.config.name f.signature.name)
  let functions ← b.functions.declare b.config.name f.signature.name f policy
  return { b with functions }

end Builder

/-! ## Classes in scope -/

/-- Adds classes to a scope, but none whose name the scope has. -/
def addToScope (scope : List Class) : List Class → List Class
  | [] => scope
  | c :: cs => addToScope (if scope.any (·.name == c.name) then scope else scope ++ [c]) cs

/-- The root and the imported classes with all that they extend. Of two classes of one name the
first counts. -/
def Builder.scope (b : Builder) : List Class :=
  addToScope [rootClass] (b.imports.flatMap (·.chain))

/-- A scope's class of a name. -/
def classNamed? (scope : List Class) (name : String) : Option Class :=
  scope.find? (·.name == name)

/-- Resolves drafts in order, each against the scope with the classes resolved so far. -/
def resolveAll (scope : List Class) (e : EntryPoints) :
    List Draft → Except ModelError (List Resolved)
  | [] => .ok []
  | d :: ds =>
    match classNamed? scope d.superclass with
    | none => .error (.unknownSuperclass d.name d.superclass)
    | some base =>
      match e.resolve d base with
      | (.error err, _) => .error err
      | (.ok r, e) => (resolveAll (scope ++ [r.cls]) e ds).map (r :: ·)

/-- The names of the entry points that a resolved class introduces: delegators first. -/
def entryNamesOf (r : Resolved) : List String :=
  r.entries.map (·.delegator.name) ++ r.entries.map (·.superDelegator.name)

/-- Classes in the order of their names. -/
def sortByName (classes : List Class) : List Class :=
  classes.mergeSort fun a b => !(b.name < a.name)

/-- The catalog of the classes with device copies. -/
def catalogOf (classes : List Class) : Device.Catalog :=
  (classes.filter (·.coprocessor)).foldl .enableClass {}

/-! ## What a class needs in the source -/

/-- How the source has the implementation that a class supplies for a method, if the source is to
have it. -/
def provisionOf (m : Method) : Except ModelError (Option Provision) :=
  match m.implementation with
  | none => .ok none
  | some i =>
    let signature := { m.signature with name := i.symbol, role := .method }
    match i.source with
    | .external => .ok (some (.external signature))
    | .verbatim text => do
      let signature ← ModelError.ofType signature.makeStatic
      return some (.definition { signature, body := .verbatim text })
    | .runtime | .generated => .ok none

def provisionsOf : List Method → Except ModelError (List Provision)
  | [] => .ok []
  | m :: ms => do
    let p ← provisionOf m
    return p.toList ++ (← provisionsOf ms)

/-- A resolved class with everything generated for it. -/
def unitOf (catalog : Device.Catalog) (r : Resolved) : Except ModelError ClassUnit := do
  let routines ← if r.cls.coprocessor then some <$> catalog.routines r.cls else pure none
  let provisions ← provisionsOf r.cls.implemented
  return {
    cls := r.cls
    entries := r.entries
    provisions
    routines
    classConstructor := classConstructor r.cls
    init := initRoutine r.cls }

def unitsOf (catalog : Device.Catalog) : List Resolved → Except ModelError (List ClassUnit)
  | [] => .ok []
  | r :: rs => do
    let u ← unitOf catalog r
    return u :: (← unitsOf catalog rs)

/-- The globals that hold the class objects of a class. -/
def classVariables (u : ClassUnit) : List Variable :=
  [classVariable u.name, classVariable u.cls.metaclass.name]

/-! ## Building -/

/-- Refuses a draft that wants device copies in a module without device code. -/
def Builder.checkCoprocessor (b : Builder) : Except ModelError Unit :=
  match b.drafts.find? fun d => d.coprocessor && !b.config.coprocessor with
  | some d => .error (.coprocessorDisabled d.name b.config.name)
  | none => .ok ()

/-- Refuses the first user's name, in the order of names, that generated code declares. -/
def Builder.checkUserNames (b : Builder) (generated : List String) : Except ModelError Unit :=
  let names := (b.globals.names ++ b.functions.names).mergeSort fun a b => !(b < a)
  match names.find? generated.contains with
  | some name => .error (.duplicateDeclaration b.config.name name)
  | none => .ok ()

def Builder.build (b : Builder) : Except ModelError Module := do
  if !isIdentifier b.config.name then throw (.badModuleName b.config.name)
  b.checkCoprocessor
  let drafts ← order b.drafts (b.scope.map (·.name))
  -- by name, so that a clash is reported alike whatever the order of the imports
  let inherited ← Owners.ofClasses (sortByName b.scope)
  let resolved ← resolveAll b.scope {} drafts
  let owners ← inherited.claimAll (resolved.map fun r => (r.cls.name, entryNamesOf r))
  let units ← unitsOf (catalogOf (b.scope ++ resolved.map (·.cls))) resolved
  let classGlobals := units.flatMap classVariables
  -- implementations, typedefs and copy routines are not among the names that users may not have
  b.checkUserNames
    (classGlobals.map (·.name) ++ owners.names ++ units.map (·.init.name))
  return {
    config := b.config
    kind := .user
    classes := units
    globals := classGlobals ++ b.globals.items
    functions := b.functions.items }

end ClassForge.Module

import ClassForge.Descriptor.Lower

/-!
# Sessions

A session builds modules one after the other. Each may build on the classes of those in front of
it, no two may have one name, and no two classes of different names may introduce one public
function. A module that is refused leaves the session as it was.
-/

namespace ClassForge

open C ClassForge.Module MonadExcept

/-- Why a session refused a module. -/
inductive SessionError where
  | model (e : ModelError)
  /-- A module imports a class that no module in front of it defines. -/
  | unknownImport (module cls : String)
  | duplicateModule (module : String)
deriving Repr, DecidableEq

def SessionError.message : SessionError → String
  | .model e => e.message
  | .unknownImport module cls => s!"module `{module}` imports unknown class `{cls}`"
  | .duplicateModule module => s!"module `{module}` is defined more than once"

/-- A class that was built, with the module that it was built in. -/
structure Built where
  module : String
  cls : Class
deriving Repr

/-- The modules built so far. -/
structure Session where
  /-- The classes; of two of one name the first counts, which was built last. -/
  classes : List Built := []
  modules : List String := []
  owners : Owners := {}
deriving Repr

namespace Session

def built? (s : Session) (name : String) : Option Built :=
  s.classes.find? (·.cls.name == name)

/-- Refuses a second module of one name. -/
def checkNew (s : Session) (module : String) : Except SessionError Unit :=
  if module ∈ s.modules then .error (.duplicateModule module) else .ok ()

/-- Finds the classes that a module imports. -/
def imported (s : Session) (module : String) : List String → Except SessionError (List Built)
  | [] => .ok []
  | name :: names =>
    match s.built? name with
    | none => .error (.unknownImport module name)
    | some b => (s.imported module names).map (b :: ·)

/-- The settings with the headers of the modules that classes come from. -/
def includeHeaders (c : Config) (imports : List Built) : Config :=
  -- a header that is included already keeps its place
  imports.foldl (fun c b => c.includeLocal (b.module ++ ".h")) c

/-- The names of classes and of all that they extend, apart from the root. -/
def importedNames (imports : List Built) : List String :=
  ((imports.flatMap (·.cls.chain)).filter (!·.isRoot)).map (·.name)

/-- Declares items one by one. -/
def declareAll {α : Type} (declare : Builder → α → Except ModelError Builder) (b : Builder) :
    List α → Except ModelError Builder
  | [] => .ok b
  | a :: as => do declareAll declare (← declare b a) as

/-- The builder for a descriptor, on top of imported classes. -/
def builderFor (d : Descriptor) (imports : List Built) : Except ModelError Builder := do
  let scope ← ModelError.ofType (d.scope (importedNames imports))
  let policy ← d.policy
  let drafts ← d.drafts scope
  let b : Builder :=
    { config := includeHeaders d.config imports, drafts, imports := imports.map (·.cls) }
  let globals ← d.globalVariables scope
  -- globals come first, so that a function of the same name is the one that is refused
  let b ← declareAll (fun b v => b.declareGlobal v policy) b globals
  let functions ← d.freeFunctions scope
  declareAll (fun b f => b.declareFunction f policy) b functions

/-- The names of the public functions that a class of a module introduces. -/
def unitEntryNames (u : ClassUnit) : List String :=
  u.delegators.map (·.name) ++ u.superDelegators.map (·.name)

/-- A computation on the session that may refuse. Where it does, the session is as it left it. -/
abbrev Step := ExceptT SessionError (StateM Session)

/-- What a computation comes to on a session, and the session after it. -/
def Step.on {α : Type} (x : Step α) (s : Session) : Except SessionError α × Session :=
  (x.run.run s).run

/-- Carries a computation over to sessions. -/
def ofModel {α : Type} : Except ModelError α → Except SessionError α
  | .ok a => .ok a
  | .error e => .error (.model e)

/-- Makes a class available to the modules behind. -/
def register (module : String) (cls : Class) : Step Unit :=
  modify fun s => { s with classes := { module, cls } :: s.classes }

/-- Builds the module that a descriptor describes. The owners are claimed on a copy, so that the
session is not touched before all that can be refused is behind. -/
def buildModule (d : Descriptor) : Step Module := do
  let s ← get
  ofExcept (s.checkNew d.module)
  let imports ← ofExcept (s.imported d.module d.imports)
  let b ← ofExcept (ofModel (builderFor d imports))
  let m ← ofExcept (ofModel b.build)
  let owners ← ofExcept <| ofModel <|
    s.owners.claimAll (m.classes.map fun u => (u.name, unitEntryNames u))
  -- nothing is refused from here on
  modify fun s => { s with owners }
  m.classes.forM fun u => register m.name u.cls
  modify fun s => { s with modules := m.name :: s.modules }
  return m

/-- What becomes of a descriptor, and of the session with it. -/
def attempt (s : Session) (d : Descriptor) : Except SessionError Module × Session :=
  (buildModule d).on s

/-- Builds the module that a descriptor describes, for as long as none is refused. -/
def build (s : Session) (d : Descriptor) : Except SessionError (Module × Session) :=
  match s.attempt d with
  | (.ok m, s) => .ok (m, s)
  | (.error e, _) => .error e

end Session

end ClassForge

import ClassForge.Class.Basic

/-!
# Owners of entry points

Delegators and super-delegators are public C functions, so no two classes may introduce one of the
same name. Each name that is in use has an owner, the class that introduces it.
-/

namespace ClassForge.Module

/-- The names in use, each with the class that introduces it. -/
structure Owners where
  entries : List (String × String) := []
deriving Repr, DecidableEq

namespace Owners

def owner? (o : Owners) (name : String) : Option String :=
  o.entries.lookup name

def names (o : Owners) : List String :=
  o.entries.map (·.1)

/-- Makes a class the owner of names, up to the first that another class owns. Names that it owns
already are no fault. -/
def claim (o : Owners) (cls : String) : List String → Except ModelError Unit × Owners
  | [] => (.ok (), o)
  | name :: names =>
    match o.owner? name with
    | some owner =>
      if owner = cls then o.claim cls names else (.error (.delegatorClash name owner cls), o)
    | none => claim ⟨o.entries ++ [(name, cls)]⟩ cls names

/-- Makes classes the owners of the names that go with them, one class after the other. -/
def claimAll (o : Owners) : List (String × List String) → Except ModelError Owners
  | [] => .ok o
  | (cls, names) :: rest =>
    match o.claim cls names with
    | (.error e, _) => .error e
    | (.ok _, o) => o.claimAll rest

end Owners

end ClassForge.Module

namespace ClassForge.Class

/-- The names of the entry points that a class introduces. -/
def entryNames (c : Class) : List String :=
  c.introduced.flatMap (·.entryNames)

end ClassForge.Class

namespace ClassForge.Module

/-- The owners of the entry points that classes introduce. -/
def Owners.ofClasses (classes : List Class) : Except ModelError Owners :=
  claimAll {} (classes.map fun c => (c.name, c.entryNames))

end ClassForge.Module

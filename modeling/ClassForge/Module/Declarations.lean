import ClassForge.Module.Config

/-!
# Declared names

The globals or functions of a module, by name, in the order in which the names first came up.
-/

namespace ClassForge.Module

/-- Declared items by name. -/
structure Declarations (α : Type) where
  entries : List (String × α) := []
deriving Repr

namespace Declarations

variable {α : Type}

def contains (d : Declarations α) (name : String) : Bool :=
  d.entries.any (·.1 == name)

/-- The declared names, in order. -/
def names (d : Declarations α) : List String :=
  d.entries.map (·.1)

def items (d : Declarations α) : List α :=
  d.entries.map (·.2)

/-- The declarations with an item more, or with the item in the place of the one that has its
name. -/
def put (d : Declarations α) (name : String) (item : α) : Declarations α :=
  if d.contains name then
    ⟨d.entries.map fun e => if e.1 = name then (name, item) else e⟩
  else ⟨d.entries ++ [(name, item)]⟩

/-- Declares an item of the module `module`. -/
def declare (d : Declarations α) (module name : String) (item : α) (policy : Policy) :
    Except ModelError (Declarations α) :=
  if d.contains name && policy == .strict then .error (.duplicateDeclaration module name)
  else .ok (d.put name item)

end Declarations

end ClassForge.Module

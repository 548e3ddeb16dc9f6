import ClassForge.C.Qualifiers
import ClassForge.C.Type

/-!
# Declarations

A `TypeUse` is a type as a declaration uses it: qualified, and with one more pointer level if the
declaration adds one. A `Variable` gives it a name; fields, parameters and globals are variables,
and a return type is a type use. Whether two uses mean the same type is decided by their
`TypeKey`s, which do not see where a pointer level comes from.
-/

namespace ClassForge.C

/-- A type as a declaration uses it. -/
structure TypeUse where
  type : CType
  /-- Whether the declaration adds a pointer level. -/
  pointer : Bool := false
  quals : Qualifiers := {}
deriving Repr, DecidableEq

/-- What decides whether two uses mean the same type. -/
structure TypeKey where
  base : CType
  /-- All pointer levels, wherever they come from. -/
  depth : Nat
  const : Bool
  volatile : Bool
deriving Repr, DecidableEq

/-- A type key as a C type. -/
def TypeKey.text (k : TypeKey) : String :=
  Qualifiers.leading { const := k.const, volatile := k.volatile } ++ k.base.spelling
    ++ CType.stars k.depth ++ k.base.suffix

namespace TypeUse

/-- The return type of a function that returns nothing. -/
def void : TypeUse := { type := .void }

/-- All pointer levels, the declaration's own included. -/
def depth (u : TypeUse) : Nat :=
  u.type.depth + if u.pointer then 1 else 0

/-- The type behind all pointer levels. -/
def base (u : TypeUse) : CType :=
  u.type.base

/-- Whether this is `void` by value. -/
def isVoid (u : TypeUse) : Bool :=
  u.depth == 0 && u.type.isVoid

def key (u : TypeUse) : TypeKey :=
  { base := u.base, depth := u.depth, const := u.quals.const, volatile := u.quals.volatile }

/-- What stands in front of the declared name. -/
def spelling (u : TypeUse) : String :=
  u.quals.leading ++ u.type.spelling ++ if u.pointer then "*" else ""

end TypeUse

/-- A declared field, parameter or global. -/
structure Variable extends TypeUse where
  name : String
deriving Repr, DecidableEq

namespace Variable

def declare (name : String) (type : CType) (pointer : Bool) (quals : Qualifiers) :
    Except TypeError Variable := do
  checkName .variable name
  if pointer && type.isArray then throw (.variablePointerToArray name)
  return { name, type, pointer, quals }

def rename (v : Variable) (name : String) : Except TypeError Variable :=
  declare name v.type v.pointer v.quals

def qualify (v : Variable) (quals : Qualifiers) : Except TypeError Variable :=
  match v.quals.join? quals with
  | some quals => .ok { v with quals }
  | none => .error (.variableStorageClash v.name)

/-- The declaration without the semicolon. -/
def text (v : Variable) : String :=
  v.spelling ++ " " ++ v.name ++ v.type.suffix

/-- Refuses what cannot be stored: `void` by value, and a storage class. The fault calls the
variable by its place, a field, a parameter or a global. -/
def checkStorable (v : Variable) (place : String) : Except TypeError Unit :=
  if v.isVoid then .error (.voidVariable place v.name)
  else if v.quals.storage.isSome then .error (.storageOnVariable place v.name)
  else .ok ()

end Variable

end ClassForge.C

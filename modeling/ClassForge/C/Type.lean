import ClassForge.C.Identifier
import ClassForge.C.Primitive

/-!
# C types

A type apart from any declaration: primitives, pointers, one-dimensional arrays, structs by tag
and function-pointer typedefs by name. The checked constructors keep pointers collapsed (levels of
nested pointers add up, to at most 255) and arrays flat, so that equal types are equal values.
-/

namespace ClassForge.C

/-- How many elements an array holds. -/
inductive ArrayLength where
  | count (n : Nat)
  /-- A preprocessor symbol. -/
  | symbol (name : String)
deriving Repr, DecidableEq

/-- An array's length as it stands between the brackets. -/
def ArrayLength.text : ArrayLength → String
  | .count n => toString n
  | .symbol name => name

inductive CType where
  | primitive (p : Primitive)
  /-- `depth` levels of indirection to a type that is no pointer itself. -/
  | pointer (target : CType) (depth : Nat)
  | array (element : CType) (length : ArrayLength)
  | struct (tag : String)
  /-- A function-pointer typedef, by its name. -/
  | typedef (name : String)
deriving Repr, DecidableEq

namespace CType

/-- The type without values. -/
def void : CType := .primitive .void

/-- The integers of C's own width. -/
def int : CType := .primitive .int

/-- The deepest pointer that is kept. -/
def maxDepth : Nat := 255

/-- Whether this is `void` itself. -/
def isVoid (t : CType) : Bool :=
  t == void

def isArray : CType → Bool
  | array .. => true
  | _ => false

/-- A pointer with `depth` more levels than `target` has. -/
def pointer? (target : CType) (depth : Nat) : Except TypeError CType :=
  if depth = 0 then .error .pointerDepthZero
  else
    match target with
    | .array .. => .error .pointerToArray
    -- levels beyond the limit are dropped without a word
    | .pointer target inner => .ok (.pointer target (min maxDepth (inner + depth)))
    | target => .ok (.pointer target (min maxDepth depth))

def array? (element : CType) (length : ArrayLength) : Except TypeError CType :=
  if element.isVoid then .error .arrayOfVoid
  else if element.isArray then .error .arrayOfArrays
  else
    match length with
    | .count n => if n = 0 then .error .arrayLengthZero else .ok (.array element length)
    | .symbol name => do
      checkName .arrayLength name
      return .array element length

def struct? (tag : String) : Except TypeError CType := do
  checkName .structTag tag
  return .struct tag

def typedef? (name : String) : Except TypeError CType := do
  checkName .typedef name
  return .typedef name

/-- The tag, if this is a struct by value. -/
def structTag? : CType → Option String
  | struct tag => some tag
  | _ => none

/-- The type behind all pointer levels. -/
def base : CType → CType
  | pointer target _ => target
  | t => t

def depth : CType → Nat
  | pointer _ n => n
  | _ => 0

def stars (n : Nat) : String :=
  String.ofList (List.replicate n '*')

/-- What stands in front of a declared name: an array is spelled as its element type. -/
def spelling : CType → String
  | primitive p => p.spelling
  | pointer target n => target.spelling ++ stars n
  | array element _ => element.spelling
  | struct tag => "struct " ++ tag
  | typedef name => name

/-- What stands behind a declared name: the length of an array in brackets. -/
def suffix : CType → String
  | array _ length => "[" ++ length.text ++ "]"
  | _ => ""

/-- The text that names a type on its own. -/
def canonical (t : CType) : String :=
  t.spelling ++ t.suffix

end CType

end ClassForge.C

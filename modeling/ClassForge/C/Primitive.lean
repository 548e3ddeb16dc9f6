import ClassForge.C.Error
import ClassForge.Text.Blank

/-!
# Primitive types

The types that C and its standard headers bring along. Each has one spelling; two more spellings
are read as aliases, and blanks inside a spelling may vary.
-/

namespace ClassForge.C

/-- A built-in type. -/
inductive Primitive where
  | void
  | char
  | int
  | unsignedInt
  | int64
  | uint64
  | float
  | double
  | size
  | vaList
  | bool
deriving Repr, DecidableEq

namespace Primitive

/-- All built-in types, in the order in which they are listed to the user. -/
def all : List Primitive :=
  [void, char, int, unsignedInt, int64, uint64, float, double, size, vaList, bool]

def spelling : Primitive → String
  | void => "void"
  | char => "char"
  | int => "int"
  | unsignedInt => "unsigned int"
  | int64 => "int64_t"
  | uint64 => "uint64_t"
  | float => "float"
  | double => "double"
  | size => "size_t"
  | vaList => "va_list"
  | bool => "bool"

/-- The type that a text with single spaces names, by its spelling or by an alias. -/
def ofSpelling? (text : String) : Option Primitive :=
  if text = "unsigned" then some unsignedInt
  else if text = "_Bool" then some bool
  else all.find? (·.spelling == text)

/-- The type that a text names, whatever its blanks. -/
def ofText? (text : String) : Option Primitive :=
  ofSpelling? (String.ofList (Text.squeeze text.toList))

/-- The type that a text names, or the fault that there is none. -/
def parse (text : String) : Except TypeError Primitive :=
  match ofText? text with
  | some p => .ok p
  | none => .error (.unknownPrimitive text)

end Primitive

end ClassForge.C

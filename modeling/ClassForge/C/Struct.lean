import ClassForge.C.Declaration

/-!
# Structs that extend structs

A struct that extends another holds it by value, `const`, as its first field `_`, so that a
pointer to the one can be read as a pointer to the other. No field name occurs twice along such a
chain, `_` aside.
-/

namespace ClassForge.C

/-- A struct, with the structs it extends. `fields` are those that the struct declares itself. -/
inductive StructType where
  | root (name : String) (fields : List Variable)
  | extension (name : String) (base : StructType) (fields : List Variable)
deriving Repr, DecidableEq

namespace StructType

/-- The name of the field that holds the extended struct. -/
def baseField : String := "_"

def name : StructType → String
  | root name _ => name
  | extension name _ _ => name

def type (s : StructType) : CType :=
  .struct s.name

/-- The fields that the struct declares itself. -/
def declared : StructType → List Variable
  | root _ fields => fields
  | extension _ _ fields => fields

/-- The struct that this one extends. -/
def base? : StructType → Option StructType
  | root .. => none
  | extension _ base _ => some base

/-- The field that holds the struct `base`. -/
def embedding (base : StructType) : Variable :=
  { name := baseField, type := base.type, quals := { const := true } }

/-- All fields, in the order of the layout. -/
def fields : StructType → List Variable
  | root _ fields => fields
  | extension _ base fields => embedding base :: fields

/-- The struct, then each that it extends, nearest first. -/
def chain : StructType → List StructType
  | root name fields => [root name fields]
  | extension name base fields => extension name base fields :: base.chain

/-- The struct's own field of a name, the embedded struct included. -/
def field? (s : StructType) (name : String) : Option Variable :=
  s.fields.find? (·.name == name)

/-- The nearest struct of the chain that has a field of a name. -/
def declaring? (s : StructType) (field : String) : Option StructType :=
  s.chain.find? fun t => (t.field? field).isSome

/-- Whether this struct or one that it extends has a name. -/
def reaches (s : StructType) (ancestor : String) : Bool :=
  s.chain.any (·.name == ancestor)

/-- The declaration that only names the struct. -/
def forwardText (s : StructType) : String :=
  "struct " ++ s.name ++ ";"

def text (s : StructType) : String :=
  "struct " ++ s.name ++ "\n\x7b\n"
    ++ String.join (s.fields.map fun f => "    " ++ f.text ++ ";\n") ++ "\x7d;"

/-- The struct that already has a field of a name, from the point of view of a new struct `name`:
itself for a field in front and for the embedded struct, else the nearest of the chain. -/
def takenBy? (name : String) (base : Option StructType) (earlier : List Variable)
    (field : String) : Option String :=
  -- only a struct on top of another has the embedded field, whose name is then taken as well
  if earlier.any (·.name == field) then some name
  else
    match base with
    | none => none
    | some b => if field = baseField then some name else (b.declaring? field).map (·.name)

/-- Checks fields one by one: each is storable and has a name that is free. -/
def checkFields (name : String) (base : Option StructType) (earlier : List Variable) :
    List Variable → Except TypeError Unit
  | [] => .ok ()
  | f :: fs => do
    f.checkStorable "field"
    match takenBy? name base earlier f.name with
    | some declaredIn => throw (.duplicateField name f.name declaredIn)
    | none => checkFields name base (earlier ++ [f]) fs

/-- Lays out a struct, on top of another or on its own. -/
def layOut (name : String) (base : Option StructType) (fields : List Variable) :
    Except TypeError StructType := do
  checkName .structTag name
  checkFields name base [] fields
  match base with
  | none => return root name fields
  | some base => return extension name base fields

end StructType

end ClassForge.C

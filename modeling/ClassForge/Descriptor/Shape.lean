import ClassForge.Json.Basic

/-!
# The shape of a descriptor

Which sort of value each key of a descriptor has. The check goes through the tables below key by
key and through lists item by item, and reports the first value of another sort, with the path that
leads to it. A key that is missing or `null`, and a key that the tables do not know, is left to the
reader of descriptors.
-/

namespace ClassForge.Descriptor

/-- What a value is to look like. -/
inductive Shape where
  | string
  | boolean
  | list (item : Shape)
  | record (members : List (String × Shape))
deriving Repr

/-- The sort of value that a shape asks for. -/
def Shape.kind : Shape → Json.Kind
  | string => .string
  | boolean => .boolean
  | list _ => .array
  | record _ => .object

/-! ## The tables -/

def stringsShape : Shape := .list .string

/-- A field, a parameter or a global. -/
def variableShape : Shape :=
  .record [("name", .string), ("type", .string), ("qualifiers", stringsShape)]

def returnShape : Shape :=
  .record [("type", .string), ("qualifiers", stringsShape)]

def functionShape : Shape :=
  .record
    [("name", .string), ("params", .list variableShape), ("returns", returnShape),
     ("qualifiers", stringsShape), ("implementation", .string), ("body", .string)]

def classShape : Shape :=
  .record
    [("name", .string), ("extends", stringsShape), ("abstract", .boolean),
     ("coprocessor", .boolean), ("fields", .list variableShape), ("methods", .list functionShape)]

def moduleShape : Shape :=
  .record
    [("module", .string), ("coprocessor", .boolean), ("strict", .boolean), ("override", .boolean),
     ("lib_includes", stringsShape), ("local_includes", stringsShape), ("structs", stringsShape),
     ("typedefs", stringsShape), ("imports", stringsShape), ("classes", .list classShape),
     ("globals", .list variableShape), ("functions", .list functionShape)]

/-! ## The check -/

/-- One step from a value to a value inside it. -/
inductive Step where
  | key (k : String)
  | index (i : Nat)
deriving Repr, DecidableEq

/-- A path with one step more. -/
def Step.extend (path : String) : Step → String
  | key k => if path.isEmpty then k else path ++ "." ++ k
  | index i => path ++ "[" ++ toString i ++ "]"

/-- A path as it is shown; the empty path stands for the whole descriptor. -/
def pathText (path : List Step) : String :=
  if path.isEmpty then "descriptor" else path.foldl Step.extend ""

/-- A value of the wrong sort. -/
structure ShapeError where
  path : List Step
  expected : Json.Kind
  found : Json.Kind
deriving Repr, DecidableEq

def ShapeError.message (e : ShapeError) : String :=
  "type mismatch for `" ++ pathText e.path ++ "`: expected " ++ e.expected.text ++ ", found "
    ++ e.found.text

/-- Checks items one by one, the first of which has the number `i`. -/
def checkItems (check : List Step → Json → Except ShapeError Unit) (path : List Step) (i : Nat) :
    List Json → Except ShapeError Unit
  | [] => .ok ()
  | v :: vs => do
    check (path ++ [.index i]) v
    checkItems check path (i + 1) vs

mutual

/-- Checks the value that `path` leads to. -/
def Shape.check : Shape → List Step → Json → Except ShapeError Unit
  | .string, path, v =>
    match v with
    | .string _ => .ok ()
    | v => .error ⟨path, .string, v.kind⟩
  | .boolean, path, v =>
    match v with
    | .bool _ => .ok ()
    | v => .error ⟨path, .boolean, v.kind⟩
  | .list item, path, v =>
    match v with
    | .array items => checkItems item.check path 0 items
    | v => .error ⟨path, .array, v.kind⟩
  | .record shapes, path, v =>
    match v with
    | .object members => Shape.checkMembers shapes path members
    | v => .error ⟨path, .object, v.kind⟩

/-- Checks members one by one, in the order of the shapes. -/
def Shape.checkMembers :
    List (String × Shape) → List Step → List (String × Json) → Except ShapeError Unit
  | [], _, _ => .ok ()
  | (k, shape) :: shapes, path, members =>
    match members.lookup k with
    -- a missing member is the reader's concern, and so is one that is not known
    | none | some .null => Shape.checkMembers shapes path members
    | some v => do
      shape.check (path ++ [.key k]) v
      Shape.checkMembers shapes path members

end

def checkShape (v : Json) : Except ShapeError Unit :=
  moduleShape.check [] v

end ClassForge.Descriptor

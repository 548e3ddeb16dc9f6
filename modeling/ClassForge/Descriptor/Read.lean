import ClassForge.Descriptor.Basic
import ClassForge.Descriptor.Shape
import ClassForge.Json.Reader

/-!
# Reading a descriptor

The members of an object are taken in the order in which they come, and each must be known and have
a value that can stand there. After the last, the keys that must not be missing are looked for. The
first fault on the way is reported.
-/

namespace ClassForge.Descriptor

/-- Why JSON of the right shape is no descriptor. -/
inductive DataError where
  | unknownKey (key : String) (known : List String)
  /-- A value of the wrong sort, most often `null`. -/
  | unexpected (found : Json.Kind) (expected : String)
  | missingKey (key : String)
deriving Repr, DecidableEq

/-- The keys that an object may have, as a choice. -/
def choice : List String → String
  | [a] => "`" ++ a ++ "`"
  | [a, b] => "`" ++ a ++ "` or `" ++ b ++ "`"
  | keys => "one of " ++ ", ".intercalate (keys.map fun k => "`" ++ k ++ "`")

def DataError.message : DataError → String
  | .unknownKey key known => "unknown field `" ++ key ++ "`, expected " ++ choice known
  | .unexpected found expected => "invalid type: " ++ found.text ++ ", expected " ++ expected
  | .missingKey key => "missing field `" ++ key ++ "`"

def readString : Json → Except DataError String
  | .string s => .ok s
  | v => .error (.unexpected v.kind "a string")

def readBool : Json → Except DataError Bool
  | .bool b => .ok b
  | v => .error (.unexpected v.kind "a boolean")

/-- Reads items, one by one. -/
def readItems {α : Type} (read : Json → Except DataError α) :
    List Json → Except DataError (List α)
  | [] => .ok []
  | v :: vs => do
    let a ← read v
    return a :: (← readItems read vs)

def readList {α : Type} (read : Json → Except DataError α) : Json → Except DataError (List α)
  | .array items => readItems read items
  | v => .error (.unexpected v.kind "a sequence")

/-- Reads a value that may be `null`. -/
def readOption {α : Type} (read : Json → Except DataError α) :
    Json → Except DataError (Option α)
  | .null => .ok none
  | v => some <$> read v

/-- Reads members, one by one, into a record that starts as `record`. -/
def readMembers {α : Type} (take : α → String → Json → Except DataError α) (record : α) :
    List (String × Json) → Except DataError α
  | [] => .ok record
  | (k, v) :: ms => do
    let record ← take record k v
    readMembers take record ms

/-- Looks for keys that must not be missing. -/
def requireKeys (members : List (String × Json)) (keys : List String) : Except DataError Unit :=
  match keys.find? fun k => (members.lookup k).isNone with
  | some k => .error (.missingKey k)
  | none => .ok ()

/-- Reads an object: its members into a record that starts as `record`, then the keys that must be
there. -/
def readObject {α : Type} (take : α → String → Json → Except DataError α) (record : α)
    (required : List String) (expected : String) : Json → Except DataError α
  | .object members => do
    let record ← readMembers take record members
    requireKeys members required
    return record
  | v => .error (.unexpected v.kind expected)

/-! ## Records -/

/-- Takes a member of a variable. -/
def VariableEntry.take (e : VariableEntry) (k : String) (v : Json) :
    Except DataError VariableEntry :=
  match k with
  | "name" => return { e with name := ← readString v }
  | "type" => return { e with type := ← readString v }
  | "qualifiers" => return { e with qualifiers := ← readList readString v }
  | k => .error (.unknownKey k ["name", "type", "qualifiers"])

def readVariable : Json → Except DataError VariableEntry :=
  readObject VariableEntry.take {} ["name", "type"] "a variable"

def ReturnEntry.take (e : ReturnEntry) (k : String) (v : Json) : Except DataError ReturnEntry :=
  match k with
  | "type" => return { e with type := ← readString v }
  | "qualifiers" => return { e with qualifiers := ← readList readString v }
  | k => .error (.unknownKey k ["type", "qualifiers"])

def readReturn : Json → Except DataError ReturnEntry :=
  readObject ReturnEntry.take {} ["type"] "a return type"

def FunctionEntry.take (e : FunctionEntry) (k : String) (v : Json) :
    Except DataError FunctionEntry :=
  match k with
  | "name" => return { e with name := ← readString v }
  | "params" => return { e with params := ← readList readVariable v }
  | "returns" => return { e with returns := ← readOption readReturn v }
  | "qualifiers" => return { e with qualifiers := ← readList readString v }
  | "implementation" => return { e with implementation := ← readOption readString v }
  | "body" => return { e with body := ← readOption readString v }
  | k =>
    .error (.unknownKey k ["name", "params", "returns", "qualifiers", "implementation", "body"])

def readFunction : Json → Except DataError FunctionEntry :=
  readObject FunctionEntry.take {} ["name"] "a function"

def ClassEntry.take (e : ClassEntry) (k : String) (v : Json) : Except DataError ClassEntry :=
  match k with
  | "name" => return { e with name := ← readString v }
  | "extends" => return { e with superclasses := ← readList readString v }
  | "abstract" => return { e with isAbstract := ← readBool v }
  | "coprocessor" => return { e with coprocessor := ← readBool v }
  | "fields" => return { e with fields := ← readList readVariable v }
  | "methods" => return { e with methods := ← readList readFunction v }
  | k =>
    .error
      (.unknownKey k ["name", "extends", "abstract", "coprocessor", "fields", "methods"])

def readClass : Json → Except DataError ClassEntry :=
  readObject ClassEntry.take {} ["name"] "a class"

/-- The keys of a descriptor. -/
def moduleKeys : List String :=
  ["module", "coprocessor", "strict", "override", "lib_includes", "local_includes", "structs",
   "typedefs", "imports", "classes", "globals", "functions"]

/-- Takes a member of a descriptor. -/
def take (d : Descriptor) (k : String) (v : Json) : Except DataError Descriptor :=
  match k with
  | "module" => return { d with module := ← readString v }
  | "coprocessor" => return { d with coprocessor := ← readBool v }
  | "strict" => return { d with strict := ← readBool v }
  | "override" => return { d with replace := ← readBool v }
  | "lib_includes" => return { d with libraries := ← readList readString v }
  | "local_includes" => return { d with locals := ← readList readString v }
  | "structs" => return { d with structs := ← readList readString v }
  | "typedefs" => return { d with typedefs := ← readList readString v }
  | "imports" => return { d with imports := ← readList readString v }
  | "classes" => return { d with classes := ← readList readClass v }
  | "globals" => return { d with globals := ← readList readVariable v }
  | "functions" => return { d with functions := ← readList readFunction v }
  | k => .error (.unknownKey k moduleKeys)

def ofJson : Json → Except DataError Descriptor :=
  readObject take {} ["module"] "a descriptor"

/-! ## Texts -/

/-- Why a text is no descriptor. -/
inductive ReadError where
  /-- The text is not JSON. -/
  | malformed
  | shape (e : ShapeError)
  | data (e : DataError)
deriving Repr, DecidableEq

/-- The text of a fault in the file `path`. -/
def ReadError.message (path : String) : ReadError → String
  | .malformed => path ++ ": malformed JSON"
  | .shape e => e.message
  | .data e => path ++ ": " ++ e.message

/-- Reads a descriptor from a JSON value: the shape is checked first. -/
def ofValue (v : Json) : Except ReadError Descriptor :=
  match checkShape v with
  | .error e => .error (.shape e)
  | .ok _ =>
    match ofJson v with
    | .error e => .error (.data e)
    | .ok d => .ok d

/-- Reads a descriptor from its text. -/
def parse (text : String) : Except ReadError Descriptor :=
  match Json.parse? text with
  | none => .error .malformed
  | some v => ofValue v

end ClassForge.Descriptor

import ClassForge.Json.Basic
import ClassForge.Json.Token

/-!
# Reading JSON

Tokens are taken one by one, with the containers that are open on a stack. At most 127 containers
may be open at a time. Where a key is repeated its last value counts, and the members of an object
are sorted by key.
-/

namespace ClassForge.Json

/-- A container that is open around a value. -/
inductive Frame where
  /-- An array, with the items in front of the value, backwards. -/
  | array (items : List Json)
  /-- An object, with its other members, and the key of the value. -/
  | object (members : List (String × Json)) (key : String)
deriving Repr

/-- What may come next. -/
inductive State where
  /-- A value. -/
  | value (stack : List Frame)
  /-- The first item of an array, or its end. -/
  | firstItem (stack : List Frame)
  /-- A key, or where `mayClose` says so the end of the object. -/
  | key (stack : List Frame) (members : List (String × Json)) (mayClose : Bool)
  /-- The colon behind a key. -/
  | colon (stack : List Frame) (members : List (String × Json)) (key : String)
  /-- What follows a value: a comma or the end of the container, or the end of the text. -/
  | behind (stack : List Frame) (v : Json)
deriving Repr

/-- Puts a member into a list that is sorted by key, in the place of one with the same key. -/
def insertMember (key : String) (v : Json) : List (String × Json) → List (String × Json)
  | [] => [(key, v)]
  | (k, w) :: ms =>
    if key < k then (key, v) :: (k, w) :: ms
    else if key = k then (key, v) :: ms
    else (k, w) :: insertMember key v ms

/-- The number of containers that may be open. -/
def maxOpen : Nat := 127

/-- Takes the first token of a value. -/
def beginValue (stack : List Frame) : Token → Option State
  | .null => some (.behind stack .null)
  | .bool b => some (.behind stack (.bool b))
  | .number text => some (.behind stack (.number text))
  | .string s => some (.behind stack (.string s))
  | .openArray => if stack.length < maxOpen then some (.firstItem stack) else none
  | .openObject => if stack.length < maxOpen then some (.key stack [] true) else none
  | _ => none

def State.step : State → Token → Option State
  | .value stack, t => beginValue stack t
  | .firstItem stack, .closeArray => some (.behind stack (.array []))
  | .firstItem stack, t => beginValue (.array [] :: stack) t
  | .key stack members _, .string k => some (.colon stack members k)
  | .key stack members true, .closeObject => some (.behind stack (.object members))
  | .colon stack members k, .colon => some (.value (.object members k :: stack))
  | .behind (.array items :: stack) v, .comma => some (.value (.array (v :: items) :: stack))
  | .behind (.array items :: stack) v, .closeArray =>
    some (.behind stack (.array (v :: items).reverse))
  | .behind (.object members k :: stack) v, .comma =>
    some (.key stack (insertMember k v members) false)
  | .behind (.object members k :: stack) v, .closeObject =>
    some (.behind stack (.object (insertMember k v members)))
  | _, _ => none

/-- Takes tokens, up to the end of the value that no container is open around. -/
def State.run (s : State) : List Token → Option Json
  | [] =>
    match s with
    | .behind [] v => some v
    | _ => none
  | t :: ts =>
    match s.step t with
    | none => none
    | some s => s.run ts

def parse? (text : String) : Option Json :=
  (tokens? text).bind (State.value []).run

end ClassForge.Json

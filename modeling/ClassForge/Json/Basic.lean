/-!
# JSON values

Values with their texts, compact and laid out. The members of an object are a list of pairs; a
value that was read has them sorted by key, each key once.
-/

namespace ClassForge

inductive Json where
  | null
  | bool (b : Bool)
  /-- A number, as it is written. -/
  | number (text : String)
  | string (s : String)
  | array (items : List Json)
  | object (members : List (String × Json))
deriving Repr

namespace Json

/-- What sort of value a JSON value is. -/
inductive Kind where
  | null
  | boolean
  | number
  | string
  | array
  | object
deriving Repr, DecidableEq

def Kind.text : Kind → String
  | null => "null"
  | boolean => "boolean"
  | number => "number"
  | string => "string"
  | array => "array"
  | object => "object"

def kind : Json → Kind
  | null => .null
  | bool _ => .boolean
  | number _ => .number
  | string _ => .string
  | array _ => .array
  | object _ => .object

/-! ## Texts -/

/-- A hexadecimal digit, in lower case. -/
def hexDigit (n : Nat) : Char :=
  if n < 10 then Char.ofNat ('0'.toNat + n) else Char.ofNat ('a'.toNat + (n - 10))

/-- A character as it stands in a string. -/
def escape (c : Char) : List Char :=
  if c = '"' then ['\\', '"']
  else if c = '\\' then ['\\', '\\']
  else if c.toNat = 0x08 then ['\\', 'b']
  else if c = '\t' then ['\\', 't']
  else if c = '\n' then ['\\', 'n']
  else if c.toNat = 0x0C then ['\\', 'f']
  else if c = '\r' then ['\\', 'r']
  else if c.toNat < 0x20 then
    ['\\', 'u', '0', '0', hexDigit (c.toNat / 16), hexDigit (c.toNat % 16)]
  else [c]

/-- A string between quotes. -/
def quote (s : String) : String :=
  String.ofList ('"' :: s.toList.flatMap escape ++ ['"'])

mutual

/-- A value without blanks. -/
def compact : Json → String
  | null => "null"
  | bool true => "true"
  | bool false => "false"
  | number text => text
  | string s => quote s
  | array items => "[" ++ compactItems items ++ "]"
  | object members => "\x7b" ++ compactMembers members ++ "\x7d"

/-- Values with commas between them. -/
def compactItems : List Json → String
  | [] => ""
  | [v] => v.compact
  | v :: vs => v.compact ++ "," ++ compactItems vs

def compactMembers : List (String × Json) → String
  | [] => ""
  | [(k, v)] => quote k ++ ":" ++ v.compact
  | (k, v) :: ms => quote k ++ ":" ++ v.compact ++ "," ++ compactMembers ms

end

/-- A line break and two spaces for each level. -/
def breakLine : Nat → String
  | 0 => "\n"
  | n + 1 => breakLine n ++ "  "

mutual

/-- A value with each item and member on a line of its own, `level` levels deep. -/
def layOut (level : Nat) : Json → String
  | array [] => "[]"
  | array (v :: vs) =>
    "[" ++ breakLine (level + 1) ++ v.layOut (level + 1) ++ layOutItems (level + 1) vs
      ++ breakLine level ++ "]"
  | object [] => "\x7b\x7d"
  | object ((k, v) :: ms) =>
    "\x7b" ++ breakLine (level + 1) ++ quote k ++ ": " ++ v.layOut (level + 1)
      ++ layOutMembers (level + 1) ms ++ breakLine level ++ "\x7d"
  | null => "null"
  | bool true => "true"
  | bool false => "false"
  | number text => text
  | string s => quote s

/-- The items behind the first. -/
def layOutItems (level : Nat) : List Json → String
  | [] => ""
  | v :: vs => "," ++ breakLine level ++ v.layOut level ++ layOutItems level vs

def layOutMembers (level : Nat) : List (String × Json) → String
  | [] => ""
  | (k, v) :: ms =>
    "," ++ breakLine level ++ quote k ++ ": " ++ v.layOut level ++ layOutMembers level ms

end

/-- A value laid out over lines. -/
def pretty (v : Json) : String :=
  v.layOut 0

end Json

end ClassForge

import ClassForge.Json.Number

/-!
# Tokens of JSON

A text is cut into tokens character by character. Between tokens only the four blanks of JSON may
stand. A string ends at its quote; a word, which is a literal or a number, ends where another
character follows.
-/

namespace ClassForge.Json

inductive Token where
  | openArray
  | closeArray
  | openObject
  | closeObject
  | comma
  | colon
  | null
  | bool (b : Bool)
  | number (text : String)
  | string (s : String)
deriving Repr, DecidableEq

/-- What a run of characters has come to. Texts are kept backwards. -/
inductive Mode where
  | between
  | word (text : List Char)
  | string (text : List Char)
  /-- Behind a backslash. `high` is the first half of a character written as two escapes. -/
  | escape (text : List Char) (high : Option Nat)
  /-- Inside an escape by number, with `left` digits to come. -/
  | code (text : List Char) (high : Option Nat) (left value : Nat)
  /-- Behind an escape that is the first half of a character. -/
  | half (text : List Char) (high : Nat)
deriving Repr, DecidableEq

/-- Whether a character may stand in a literal or a number. -/
def isWordChar (c : Char) : Bool :=
  c.isAlphanum || c == '-' || c == '+' || c == '.'

/-- The token that a word is. -/
def wordToken? (text : List Char) : Option Token :=
  match String.ofList text with
  | "null" => some .null
  | "true" => some (.bool true)
  | "false" => some (.bool false)
  | word => if isNumber text then some (.number word) else none

/-- The token that a character is by itself. -/
def punctuation? (c : Char) : Option Token :=
  if c = '[' then some .openArray
  else if c = ']' then some .closeArray
  else if c.toNat = 0x7b then some .openObject
  else if c.toNat = 0x7d then some .closeObject
  else if c = ',' then some .comma
  else if c = ':' then some .colon
  else none

/-- The blanks that JSON allows between tokens. -/
def isJsonBlank (c : Char) : Bool :=
  c == ' ' || c == '\t' || c == '\n' || c == '\r'

def hexValue? (c : Char) : Option Nat :=
  if c.isDigit then some (c.toNat - '0'.toNat)
  else if 'a' ≤ c ∧ c ≤ 'f' then some (c.toNat - 'a'.toNat + 10)
  else if 'A' ≤ c ∧ c ≤ 'F' then some (c.toNat - 'A'.toNat + 10)
  else none

/-- The character that a backslash and a letter stand for. -/
def escaped? (c : Char) : Option Char :=
  if c = '"' ∨ c = '\\' ∨ c = '/' then some c
  else if c = 'b' then some (Char.ofNat 0x08)
  else if c = 'f' then some (Char.ofNat 0x0C)
  else if c = 'n' then some '\n'
  else if c = 'r' then some '\r'
  else if c = 't' then some '\t'
  else none

/-- What an escape by number leads to: a character, or the first half of one. A second half counts
only behind a first. -/
def finishCode (text : List Char) (high : Option Nat) (value : Nat) : Option Mode :=
  match high with
  | some h =>
    if 0xDC00 ≤ value && value < 0xE000 then
      some (.string (Char.ofNat (0x10000 + (h - 0xD800) * 0x400 + (value - 0xDC00)) :: text))
    else none
  | none =>
    -- halves are below 0xDC00 if they come first, and from there to 0xE000 if they come second
    if 0xD800 ≤ value && value < 0xDC00 then some (.half text value)
    else if 0xDC00 ≤ value && value < 0xE000 then none
    else some (.string (Char.ofNat value :: text))

/-- Reads a character that no token is open for. -/
def stepBetween (c : Char) : Option (Mode × List Token) :=
  if isJsonBlank c then some (.between, [])
  else if c = '"' then some (.string [], [])
  else if isWordChar c then some (.word [c], [])
  else (punctuation? c).map fun t => (.between, [t])

/-- Reads one character. Returns the tokens that it completes. -/
def Mode.step (m : Mode) (c : Char) : Option (Mode × List Token) :=
  match m with
  | between => stepBetween c
  | word text =>
    if isWordChar c then some (.word (c :: text), [])
    else do
      let t ← wordToken? text.reverse
      -- the character behind a word ends it, and may be a token of its own
      let (m, ts) ← stepBetween c
      return (m, t :: ts)
  | string text =>
    if c = '"' then some (.between, [.string (String.ofList text.reverse)])
    else if c = '\\' then some (.escape text none, [])
    -- control characters stand in a string only as escapes
    else if c.toNat < 0x20 then none
    else some (.string (c :: text), [])
  | escape text high =>
    if c = 'u' then some (.code text high 4 0, [])
    else if high.isSome then none
    else (escaped? c).map fun e => (.string (e :: text), [])
  | code text high left value => do
    let digit ← hexValue? c
    let value := 16 * value + digit
    if left ≤ 1 then (finishCode text high value).map (·, [])
    else return (.code text high (left - 1) value, [])
  | half text high => if c = '\\' then some (.escape text (some high), []) else none

/-- The tokens that the end of the text completes. -/
def Mode.finish : Mode → Option (List Token)
  | between => some []
  | word text => (wordToken? text.reverse).map ([·])
  | _ => none

/-- Reads characters, and puts the tokens in front of `done`, which is kept backwards. -/
def scan (m : Mode) (done : List Token) : List Char → Option (List Token)
  | [] => m.finish.map fun ts => done.reverse ++ ts
  | c :: cs =>
    match m.step c with
    | none => none
    | some (m, ts) => scan m (ts.reverse ++ done) cs

def tokens? (text : String) : Option (List Token) :=
  scan .between [] text.toList

end ClassForge.Json

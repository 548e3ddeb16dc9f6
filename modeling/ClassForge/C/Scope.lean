import ClassForge.C.Type

/-!
# Type expressions

The types that a text can name, given the struct tags and typedefs in scope:

    type    ::=  base stars [ '[' length ']' ]
    base    ::=  primitive | 'struct' tag | typedef
    stars   ::=  { '*' }
    length  ::=  digits | symbol

Blanks may stand around each part. A text is cut from its end: the bracket first, then the stars,
and what is left is the base.
-/

namespace ClassForge.C

/-- The type names in scope. -/
structure Scope where
  tags : List String := []
  typedefs : List String := []
deriving Repr, DecidableEq

namespace Scope

open Text

def hasTag (s : Scope) (tag : String) : Bool :=
  s.tags.contains tag

def hasTypedef (s : Scope) (name : String) : Bool :=
  s.typedefs.contains name

/-- The scope with a struct tag more. -/
def addTag (s : Scope) (tag : String) : Except TypeError Scope := do
  checkName .structTag tag
  return { s with tags := s.tags.insert tag }

/-- The scope with a typedef more, whose name is no primitive type. -/
def addTypedef (s : Scope) (name : String) : Except TypeError Scope := do
  checkName .typedef name
  if (Primitive.ofText? name).isSome then throw (.typedefShadowsPrimitive name)
  return { s with typedefs := s.typedefs.insert name }

/-- The number that a list of decimal digits denotes. -/
def digitsValue (digits : List Char) : Nat :=
  digits.foldl (fun n c => 10 * n + (c.toNat - '0'.toNat)) 0

/-- Array lengths are 64-bit words. -/
def lengthLimit : Nat := UInt64.size

def parseLength (text : List Char) : Except TypeError ArrayLength :=
  if !text.isEmpty && text.all Char.isDigit then
    if digitsValue text < lengthLimit then .ok (.count (digitsValue text))
    else .error (.arrayLengthTooLarge (String.ofList text))
  else do
    checkName .arrayLength (String.ofList text)
    return .symbol (String.ofList text)

/-- Cuts the stars off a text that is given backwards, with the blanks among them, and counts
them. -/
def cutStars : List Char → Nat × List Char
  | [] => (0, [])
  | c :: cs =>
    if c == '*' then
      let (n, rest) := cutStars cs
      (n + 1, rest)
    else if isBlank c then cutStars cs
    else (0, c :: cs)

/-- The word that starts the name of a struct type, with one space. -/
def structWord : List Char := "struct ".toList

/-- Reads the base of a type. -/
def parseBase (s : Scope) (text : List Char) : Except TypeError CType :=
  if text.isEmpty then .error .emptyType
  else if structWord.isPrefixOf text then
    let tag := String.ofList (trim (text.drop structWord.length))
    if s.hasTag tag then .ok (.struct tag) else .error (.unknownStruct tag)
  else
    -- primitive types come first; no typedef has the name of one
    match Primitive.ofText? (String.ofList text) with
    | some p => .ok (.primitive p)
    | none =>
      let name := String.ofList text
      if s.hasTypedef name then .ok (.typedef name) else .error (.unknownType name)

/-- Reads a base with stars behind it. `whole` is the text that faults quote. -/
def parseStarred (s : Scope) (whole text : List Char) : Except TypeError CType := do
  let (depth, rest) := cutStars text.reverse
  if CType.maxDepth < depth then throw (.tooManyPointers (String.ofList whole))
  let base ← s.parseBase rest.reverse
  -- `pointer?` refuses depth zero, and without stars there is nothing to add
  if depth = 0 then return base else CType.pointer? base depth

/-- Cuts a text that is given backwards, and has lost its closing bracket, at the last opening
bracket: what stands in front of it, still backwards, and what stands between. -/
def cutBracket? (text : List Char) : Option (List Char × List Char) :=
  match text.dropWhile (· != '[') with
  | [] => none
  | _ :: front => some (front, (text.takeWhile (· != '[')).reverse)

/-- Reads a type from characters without blanks at either end. -/
def parseTrimmed (s : Scope) (text : List Char) : Except TypeError CType :=
  match text.reverse with
  -- the last character decides whether this is an array
  | ']' :: rest =>
    match cutBracket? rest with
    | none => .error (.unbalancedBracket (String.ofList text))
    | some (front, between) => do
      let length ← parseLength (trim between)
      let element ← s.parseStarred text front.reverse
      CType.array? element length
  | _ => s.parseStarred text text

def parse (s : Scope) (text : String) : Except TypeError CType :=
  s.parseTrimmed (trim text.toList)

end Scope

end ClassForge.C

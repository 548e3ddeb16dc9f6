/-!
# Numbers in JSON

Which texts are numbers, and which of those lie in the range of a double. The range is judged on
rounded factors: the leading digits that fit a 64-bit word are rounded to a double and multiplied by
a power of ten, itself rounded, and the product must not round to infinity.
-/

namespace ClassForge.Json

/-- The parts of a number's text, without signs but that of the exponent. -/
structure NumberParts where
  whole : List Char
  fraction : List Char := []
  /-- Whether the exponent is negative. -/
  shrinks : Bool := false
  exponent : List Char := []
deriving Repr, DecidableEq

/-- Whether digits may stand in front of the point: there are some, and no zero comes first but a
lone one. -/
def isWhole : List Char → Bool
  | [] => false
  | ['0'] => true
  | c :: _ => c != '0'

/-- Splits a text into the digits it starts with and the rest. -/
def spanDigits (cs : List Char) : List Char × List Char :=
  (cs.takeWhile Char.isDigit, cs.dropWhile Char.isDigit)

/-- The sign and the digits of an exponent. -/
def exponent? (cs : List Char) : Option (Bool × List Char) :=
  let (shrinks, digits) :=
    match cs with
    | '-' :: cs => (true, cs)
    | '+' :: cs => (false, cs)
    | cs => (false, cs)
  if !digits.isEmpty && digits.all Char.isDigit then some (shrinks, digits) else none

/-- The parts of a number's text, if the text is a number. -/
def numberParts? (cs : List Char) : Option NumberParts := do
  -- the sign has no bearing on whether the number is in range
  let cs := match cs with
    | '-' :: cs => cs
    | cs => cs
  let (whole, cs) := spanDigits cs
  guard (isWhole whole)
  let (fraction, cs) ←
    match cs with
    | '.' :: cs =>
      if (spanDigits cs).1.isEmpty then none else some (spanDigits cs)
    | cs => some ([], cs)
  match cs with
  | [] => return { whole, fraction }
  | c :: cs =>
    guard (c == 'e' || c == 'E')
    let (shrinks, exponent) ← exponent? cs
    return { whole, fraction, shrinks, exponent }

/-- The digits are kept as long as they fit a word of 64 bits. Returns the number they form, on top
of `acc`, and how many digits were not kept. -/
def keepDigits (acc : Nat) : List Char → Nat × Nat
  | [] => (acc, 0)
  | c :: cs =>
    let next := 10 * acc + (c.toNat - '0'.toNat)
    if next < UInt64.size then keepDigits next cs else (acc, cs.length + 1)

/-- The nearest number with 53 significant bits; of two, the one whose last bit is zero. -/
def roundToDouble (n : Nat) : Nat :=
  let shift := Nat.log2 n + 1 - 53
  let unit := Nat.pow 2 shift
  let q := n / unit
  let r := n % unit
  if shift = 0 then n
  -- halfway between two neighbours the even one is nearer
  else if unit < 2 * r || (unit == 2 * r && q % 2 == 1) then (q + 1) * unit
  else q * unit

/-- The least number that a double would round to infinity. -/
def infinityBound : Nat := Nat.pow 2 1024 - Nat.pow 2 970

/-- Whether `digits · 10 ^ power` lies in the range of a double. -/
def inRange (digits : Nat) (power : Int) : Bool :=
  digits == 0 || power < 0
    || (power ≤ 308
      && decide (roundToDouble digits * roundToDouble (Nat.pow 10 power.toNat) < infinityBound))

/-- Whether the parts of a number's text form a number in the range of a double. -/
def NumberParts.fits (p : NumberParts) : Bool :=
  let (digits, skipped) := keepDigits 0 p.whole
  let (digits, lost) := keepDigits digits p.fraction
  let exponent := p.exponent.foldl (fun n c => 10 * n + (c.toNat - '0'.toNat)) 0
  let shift : Int := if p.shrinks then -exponent else exponent
  inRange digits ((skipped : Int) - (p.fraction.length - lost : Nat) + shift)

/-- Whether a text is a number in the range of a double. -/
def isNumber (cs : List Char) : Bool :=
  (numberParts? cs).any (·.fits)

end ClassForge.Json

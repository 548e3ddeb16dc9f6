import ClassForge.Text.Blank

/-!
# Re-indenting a body

A body that a user wrote is set one level deep: blank lines at either end are dropped, the margin
that all its lines share is cut off, and four spaces go in front of each line. The margin is
measured in bytes, so a cut can fall inside a blank character; such a line loses its whole margin.
-/

namespace ClassForge.Text

/-- Whether a line holds blanks only. -/
def isBlankLine (line : List Char) : Bool :=
  line.all isBlank

/-- The lines from the first to the last that is not blank. -/
def innerLines (ls : List (List Char)) : List (List Char) :=
  ((ls.dropWhile isBlankLine).reverse.dropWhile isBlankLine).reverse

/-- The number of bytes that a text takes. -/
def byteLength : List Char → Nat
  | [] => 0
  | c :: cs => c.utf8Size + byteLength cs

/-- The number of bytes that the blanks in front of a line take. -/
def margin (line : List Char) : Nat :=
  byteLength (line.takeWhile isBlank)

/-- The margin that all lines share, blank ones aside. -/
def commonMargin (ls : List (List Char)) : Nat :=
  (((ls.filter (!isBlankLine ·)).map margin).min?).getD 0

/-- The line without its first `n` bytes, unless the cut falls inside a character or behind the
end. -/
def dropBytes? : Nat → List Char → Option (List Char)
  | 0, cs => some cs
  | _ + 1, [] => none
  | n + 1, c :: cs => if c.utf8Size ≤ n + 1 then dropBytes? (n + 1 - c.utf8Size) cs else none

/-- One line of a body whose lines share the margin `common`. -/
def indentLine (common : Nat) (line : List Char) : List Char :=
  if isBlankLine line then []
  -- where the cut falls inside a blank, the line loses all of its margin
  else List.replicate 4 ' ' ++ trimEnd ((dropBytes? common line).getD (trimStart line))

/-- The lines of a body, one level deep. -/
def indentLines (ls : List (List Char)) : List (List Char) :=
  (innerLines ls).map (indentLine (commonMargin (innerLines ls)))

/-- A body re-indented to one level, each of its lines ended by a line break. -/
def indentBody (text : String) : String :=
  String.join ((indentLines (lines text.toList)).map fun l => String.ofList (l ++ ['\n']))

end ClassForge.Text

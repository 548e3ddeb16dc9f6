/-!
# Blank characters

The characters with the Unicode property `White_Space`, and the cuts that text takes at them:
trimming either end, splitting into words, and splitting into lines. All of them work on the list
of characters, so that the laws of lists apply.
-/

namespace ClassForge.Text

/-- The characters with the Unicode property `White_Space`. -/
def isBlank (c : Char) : Bool :=
  let n := c.toNat
  (9 ≤ n && n ≤ 13) || n == 0x20 || n == 0x85 || n == 0xA0 || n == 0x1680
    || (0x2000 ≤ n && n ≤ 0x200A) || n == 0x2028 || n == 0x2029 || n == 0x202F || n == 0x205F
    || n == 0x3000

/-- The text without the blanks it starts with. -/
def trimStart (cs : List Char) : List Char :=
  cs.dropWhile isBlank

/-- The text without the blanks it ends with. -/
def trimEnd (cs : List Char) : List Char :=
  (cs.reverse.dropWhile isBlank).reverse

/-- The text without the blanks at either end. -/
def trim (cs : List Char) : List Char :=
  trimEnd (trimStart cs)

/-- The pieces of a text between the characters that satisfy `cut`, empty pieces included. There
is always one piece more than there are cuts. -/
def pieces (cut : Char → Bool) : List Char → List (List Char)
  | [] => [[]]
  | c :: cs =>
    match pieces cut cs with
    | [] => [[c]]
    | p :: ps => if cut c then [] :: p :: ps else (c :: p) :: ps

/-- The lines of a text: the pieces between its line breaks. -/
def lines (cs : List Char) : List (List Char) :=
  pieces (· == '\n') cs

/-- The words of a text: its longest runs without blanks. -/
def words (cs : List Char) : List (List Char) :=
  (pieces isBlank cs).filter (!·.isEmpty)

/-- The text with each run of blanks inside it replaced by one space, and none at the ends. -/
def squeeze (cs : List Char) : List Char :=
  [' '].intercalate (words cs)

end ClassForge.Text

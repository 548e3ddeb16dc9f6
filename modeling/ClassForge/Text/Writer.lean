/-!
# Writing indented text

A `Writer` is the text written so far, the depth at which the next line starts, and the lines
that were written on the condition that they be new. One level of depth is four spaces.
-/

namespace ClassForge.Text

/-- Text under construction. -/
structure Writer where
  /-- How many levels deep the next line starts. -/
  depth : Nat := 0
  /-- What has been written and not yet taken. -/
  text : String := ""
  /-- The lines written by `lineOnce` since the last reset. -/
  once : List String := []
deriving Repr, DecidableEq

namespace Writer

def deeper (w : Writer) : Writer :=
  { w with depth := w.depth + 1 }

/-- One level less deep; the outermost level stays. -/
def shallower (w : Writer) : Writer :=
  { w with depth := w.depth - 1 }

/-- Adds text as it is. -/
def write (w : Writer) (s : String) : Writer :=
  { w with text := w.text ++ s }

/-- The spaces in front of a line at the given depth. -/
def margin : Nat → String
  | 0 => ""
  | n + 1 => margin n ++ "    "

/-- Adds the spaces that a line at the current depth starts with. -/
def writeMargin (w : Writer) : Writer :=
  w.write (margin w.depth)

def newline (w : Writer) : Writer :=
  w.write "\n"

/-- Adds a line at the current depth. -/
def line (w : Writer) (s : String) : Writer :=
  ((w.writeMargin).write s).newline

/-- Adds a line at the left edge, as preprocessor directives are. -/
def directive (w : Writer) (s : String) : Writer :=
  (w.write s).newline

/-- Opens a braced block, on a line of its own, and goes one level deeper. -/
def openBlock (w : Writer) : Writer :=
  (w.line "\x7b").deeper

/-- Leaves one level and writes the line that closes the block. -/
def closeBlock (w : Writer) (closing : String) : Writer :=
  w.shallower.line closing

/-- Adds a line unless this operation has written the same one since the last reset. Says whether
the line was written. -/
def lineOnce (w : Writer) (s : String) : Bool × Writer :=
  if s ∈ w.once then (false, w) else (true, { w with once := s :: w.once }.line s)

/-- Takes the text out and leaves the rest of the state. -/
def take (w : Writer) : String × Writer :=
  (w.text, { w with text := "" })

/-- The writer with nothing in it, at the left edge. -/
def reset (_ : Writer) : Writer :=
  {}

end Writer

end ClassForge.Text

import ClassForge.C.Code
import ClassForge.Proofs.Text.Indent

/-!
# Code as it is written

A piece of generated code is written as rows of text: its lines, each at its depth, braces on rows
of their own, and directives at the left edge. What was written before stays, and the next line
starts as deep as the first one did.
-/

namespace ClassForge.C.Code

open Text

/-! ### Rows -/

mutual

/-- The rows that a piece of code is written as. -/
def rows (depth : Nat) : Code → List String
  | .line text => [Writer.margin depth ++ text]
  | .blank => [""]
  | .block body =>
    (Writer.margin depth ++ "\x7b") :: allRows (depth + 1) body ++ [Writer.margin depth ++ "\x7d"]
  | .deeper body => allRows (depth + 1) body
  | .whenDefined symbol body => ("#ifdef " ++ symbol) :: allRows depth body ++ ["#endif"]
  | .ifDefined symbol body otherwise =>
    ("#ifdef " ++ symbol) :: allRows depth body ++ "#else" :: allRows depth otherwise ++ ["#endif"]

/-- The rows of pieces of code, in order. -/
def allRows (depth : Nat) : List Code → List String
  | [] => []
  | c :: cs => rows depth c ++ allRows depth cs

end

/-- Rows as text, each ended by a line break. -/
def ended (rows : List String) : String :=
  String.join (rows.map (· ++ "\n"))

@[simp] theorem ended_nil : ended [] = "" := rfl

@[simp] theorem ended_cons (r : String) (rs : List String) :
    ended (r :: rs) = r ++ "\n" ++ ended rs := by
  rw [ended, List.map_cons, String.join_cons, ended]

@[simp] theorem ended_append (rs rs' : List String) : ended (rs ++ rs') = ended rs ++ ended rs' := by
  rw [ended, List.map_append, String.join_append, ended, ended]

theorem toList_ended (rs : List String) :
    (ended rs).toList = (rs.map String.toList).flatMap (· ++ ['\n']) := by
  rw [ended, String.toList_join, List.flatMap_map, List.flatMap_map]
  simp

/-! ### Writing -/

theorem line_eq (w : Writer) (s : String) :
    w.line s = { w with text := w.text ++ ended [Writer.margin w.depth ++ s] } := by
  simp [Writer.line, Writer.newline, Writer.writeMargin, Writer.write, String.append_assoc]

theorem directive_eq (w : Writer) (s : String) :
    w.directive s = { w with text := w.text ++ ended [s] } := by
  simp [Writer.directive, Writer.newline, Writer.write, String.append_assoc]

mutual

theorem write_eq (c : Code) (w : Writer) :
    c.write w = { w with text := w.text ++ ended (c.rows w.depth) } := by
  cases c with
  | line text => exact line_eq w text
  | blank => rfl
  | block body =>
    rw [write, writeAll_eq, rows]
    simp [Writer.openBlock, Writer.closeBlock, Writer.deeper, Writer.shallower, line_eq,
      String.append_assoc]
  | deeper body =>
    rw [write, writeAll_eq, rows]
    rfl
  | whenDefined symbol body =>
    rw [write, writeAll_eq, directive_eq, directive_eq, rows]
    simp [String.append_assoc]
  | ifDefined symbol body otherwise =>
    rw [write, writeAll_eq, writeAll_eq, directive_eq, directive_eq, directive_eq, rows]
    simp [String.append_assoc]

/-- Writing adds the rows and changes nothing else: behind the code the writer is as deep as it was
in front. -/
theorem writeAll_eq (cs : List Code) (w : Writer) :
    writeAll cs w = { w with text := w.text ++ ended (allRows w.depth cs) } := by
  cases cs with
  | nil => simp [writeAll, allRows, ended]
  | cons c cs =>
    rw [writeAll, write_eq, writeAll_eq, allRows, ended_append, String.append_assoc]

end

theorem bodyText_eq (cs : List Code) : bodyText cs = ended (allRows 1 cs) := by
  rw [bodyText, writeAll_eq]
  exact String.empty_append

/-- The depth that a body is written at is left as it was. -/
theorem depth_writeAll (cs : List Code) (w : Writer) : (writeAll cs w).depth = w.depth := by
  rw [writeAll_eq]

/-- The lines of a body are its rows, if no row has a line break in it, and one empty line
behind. -/
theorem lines_bodyText {cs : List Code} (h : ∀ r ∈ allRows 1 cs, '\n' ∉ r.toList) :
    lines (bodyText cs).toList = (allRows 1 cs).map String.toList ++ [[]] := by
  rw [bodyText_eq, toList_ended]
  exact lines_flatMap (List.forall_mem_map.2 h)

end ClassForge.C.Code

import ClassForge.Proofs.Text.Indent

/-!
# Brackets and directives

What a C text is nested by are its parentheses and braces, and the preprocessor directives that
stand on lines of their own. `Nested` says how these may follow one another: a bracket is closed by
one of its kind, a conditional part is ended, with one other branch at most, and what stands within
brackets or in a branch is nested on its own. So no directive stands between two brackets of which
only one is in its branch. From that the brackets of each kind are balanced (`Nested.balanced`).
-/

namespace ClassForge.Text

/-! ### Balanced lists -/

/-- There are as many of `c` as of `o`, and no more of `c` than of `o` in front of any place. -/
structure Balanced {α : Type} [DecidableEq α] (o c : α) (l : List α) : Prop where
  total : l.count c = l.count o
  upTo : ∀ n, (l.take n).count c ≤ (l.take n).count o

namespace Balanced

variable {α β : Type} [DecidableEq α] [DecidableEq β] {o c : α} {l l' : List α}

theorem nil : Balanced o c [] := ⟨rfl, by simp⟩

theorem append (h : Balanced o c l) (h' : Balanced o c l') : Balanced o c (l ++ l') where
  total := by rw [List.count_append, List.count_append, h.total, h'.total]
  upTo n := by
    rw [List.take_append, List.count_append, List.count_append]
    exact Nat.add_le_add (h.upTo n) (h'.upTo _)

/-- What is neither does not count. -/
theorem singleton {a : α} (ho : a ≠ o) (hc : a ≠ c) : Balanced o c [a] where
  total := by simp [ho, hc]
  upTo n := by cases n <;> simp [hc]

theorem wrap (h : Balanced o c l) (hne : o ≠ c) : Balanced o c (o :: l ++ [c]) where
  total := by simp [h.total, hne, hne.symm]
  upTo n := by
    cases n with
    | zero => simp
    | succ n =>
      -- the closing mark can be one more, which the opening one in front makes up for
      have hlast : (([c] : List α).take (n - l.length)).count c ≤ 1 :=
        List.count_le_length.trans (List.length_take_le' ..)
      have hinner := h.upTo n
      simp only [List.cons_append, List.take_succ_cons, List.take_append, List.count_cons,
        List.count_append, beq_self_eq_true, if_true, beq_eq_false_iff_ne.2 hne]
      simp only [Bool.false_eq_true, if_false]
      omega

/-- What is balanced in the images of some elements is so in the elements. -/
theorem of_filterMap {f : β → Option α} {o' c' : β} {l : List β} (ho : ∀ x, f x = some o ↔ x = o')
    (hc : ∀ x, f x = some c ↔ x = c') (h : Balanced o c (l.filterMap f)) : Balanced o' c' l := by
  have hcount (a : α) (a' : β) (ha : ∀ x, f x = some a ↔ x = a') (xs : List β) :
      xs.count a' = (xs.filterMap f).count a := by
    rw [List.count_filterMap, List.count]
    refine List.countP_congr fun x _ => ?_
    rw [beq_iff_eq, beq_iff_eq, ha]
  refine ⟨by rw [hcount c c' hc, hcount o o' ho, h.total], fun n => ?_⟩
  have hprefix : (l.take n).filterMap f <+: l.filterMap f := (List.take_prefix n l).filterMap f
  rw [hcount c c' hc, hcount o o' ho, List.prefix_iff_eq_take.1 hprefix]
  exact h.upTo _

end Balanced

/-! ### Marks -/

/-- The kinds of brackets. -/
inductive Bracket where
  | paren
  | brace
deriving Repr, DecidableEq

namespace Bracket

/-- The character that opens a bracket of the kind. -/
def opens : Bracket → Char
  | paren => '('
  | brace => '\x7b'

/-- The character that closes a bracket of the kind. -/
def closes : Bracket → Char
  | paren => ')'
  | brace => '\x7d'

end Bracket

/-- What a text is nested by. -/
inductive Mark where
  | opening (b : Bracket)
  | closing (b : Bracket)
  /-- A preprocessor directive, by its name. -/
  | directive (name : String)
deriving Repr, DecidableEq

/-- The bracket that a character is. -/
def bracket? (c : Char) : Option Mark :=
  if c = '(' then some (.opening .paren)
  else if c = ')' then some (.closing .paren)
  else if c = '\x7b' then some (.opening .brace)
  else if c = '\x7d' then some (.closing .brace)
  else none

/-- The brackets in a text. -/
def brackets (cs : List Char) : List Mark :=
  cs.filterMap bracket?

/-- The directive that a row is: the first that is no blank in it is a `#`. -/
def directive? (row : List Char) : Option Mark :=
  match trimStart row with
  | '#' :: rest => some (.directive (String.ofList ((trimStart rest).takeWhile (·.isAlpha))))
  | _ => none

/-- The marks in a row. -/
def rowMarks (row : List Char) : List Mark :=
  (directive? row).toList ++ brackets row

/-- The marks in a text, row by row. -/
def marks (cs : List Char) : List Mark :=
  (lines cs).flatMap rowMarks

/-- How marks may follow one another. -/
inductive Nested : List Mark → Prop where
  | nil : Nested []
  | pair {b : Bracket} {inner rest : List Mark} (hinner : Nested inner) (hrest : Nested rest) :
    Nested (.opening b :: inner ++ .closing b :: rest)
  | conditional {body rest : List Mark} (hbody : Nested body) (hrest : Nested rest) :
    Nested (.directive "ifdef" :: body ++ .directive "endif" :: rest)
  | alternative {body otherwise rest : List Mark} (hbody : Nested body)
    (hotherwise : Nested otherwise) (hrest : Nested rest) :
    Nested (.directive "ifdef" :: body ++ .directive "else" :: otherwise
      ++ .directive "endif" :: rest)

namespace Nested

variable {ms ms' : List Mark}

theorem append (h : Nested ms) (h' : Nested ms') : Nested (ms ++ ms') := by
  induction h with
  | nil => exact h'
  | pair hinner _ _ ih => simpa using pair hinner ih
  | conditional hbody _ _ ih => simpa using conditional hbody ih
  | alternative hbody hotherwise _ _ _ ih => simpa using alternative hbody hotherwise ih

/-- Without the directives the marks are nested too. -/
theorem filter (h : Nested ms) {p : Mark → Bool} (hopening : ∀ b, p (.opening b) = true)
    (hclosing : ∀ b, p (.closing b) = true) (hdirective : ∀ n, p (.directive n) = false) :
    Nested (ms.filter p) := by
  induction h with
  | nil => exact nil
  | pair _ _ ih ih' => simpa [hopening, hclosing] using pair ih ih'
  | conditional _ _ ih ih' => simpa [hdirective] using ih.append ih'
  | alternative _ _ _ ih ih' ih'' => simpa [hdirective] using ih.append (ih'.append ih'')

/-- Brackets of each kind are balanced. -/
theorem balanced (h : Nested ms) (b : Bracket) : Balanced (.opening b) (.closing b) ms := by
  have hdirective (n : String) : Balanced (.opening b) (.closing b) [Mark.directive n] :=
    .singleton (by simp) (by simp)
  induction h with
  | nil => exact .nil
  | @pair b' inner rest _ _ ih ih' =>
    rw [List.append_cons]
    refine Balanced.append ?_ ih'
    by_cases hb : b' = b
    · subst hb
      exact ih.wrap (by simp)
    · -- brackets of the other kind do not count
      exact (Balanced.append (l := [_]) (.singleton (by simp [hb]) (by simp)) ih).append
        (.singleton (by simp) (by simp [hb]))
  | conditional _ _ ih ih' =>
    rw [List.append_cons]
    exact (((hdirective _).append ih).append (hdirective _)).append ih'
  | alternative _ _ _ ih ih' ih'' =>
    rw [List.append_cons, List.append_cons (_ :: _)]
    exact (((((hdirective _).append ih).append (hdirective _)).append ih').append
      (hdirective _)).append ih''

end Nested

/-! ### Marks of texts -/

theorem brackets_append (cs cs' : List Char) : brackets (cs ++ cs') = brackets cs ++ brackets cs' :=
  List.filterMap_append

/-- No bracket is lost between the lines. -/
theorem flatMap_brackets_lines (cs : List Char) : (lines cs).flatMap brackets = brackets cs := by
  induction cs with
  | nil => rfl
  | cons c cs ih =>
    have hcons : brackets (c :: cs) = brackets [c] ++ brackets cs := brackets_append [c] cs
    rw [hcons, ← ih, lines, pieces]
    cases hlines : pieces (· == '\n') cs with
    | nil => exact absurd hlines (pieces_ne_nil _ cs)
    | cons p ps =>
      dsimp only
      split
      next hbreak =>
        obtain rfl := beq_iff_eq.1 hbreak
        simp [lines, hlines, brackets, bracket?]
      next =>
        simp only [lines, hlines, List.flatMap_cons, ← List.append_assoc]
        rw [← brackets_append]
        rfl

theorem filter_marks (cs : List Char) {p : Mark → Bool} (hopening : ∀ b, p (.opening b) = true)
    (hclosing : ∀ b, p (.closing b) = true) (hdirective : ∀ n, p (.directive n) = false) :
    (marks cs).filter p = brackets cs := by
  have hbrackets (row : List Char) : (brackets row).filter p = brackets row := by
    refine List.filter_eq_self.2 fun m hm => ?_
    obtain ⟨c, -, hc⟩ := List.mem_filterMap.1 hm
    unfold bracket? at hc
    split_ifs at hc <;> cases hc <;> simp [hopening, hclosing]
  -- directives are dropped, and brackets are found row by row
  have hrow (row : List Char) : (rowMarks row).filter p = brackets row := by
    rw [rowMarks, List.filter_append, hbrackets, directive?]
    split <;> simp [hdirective]
  rw [marks, List.filter_flatMap, ← flatMap_brackets_lines]
  simp only [hrow]

theorem bracket?_eq_opening {b : Bracket} {c : Char} :
    bracket? c = some (.opening b) ↔ c = b.opens := by
  unfold bracket?
  cases b <;> split_ifs <;> simp_all [Bracket.opens]

theorem bracket?_eq_closing {b : Bracket} {c : Char} :
    bracket? c = some (.closing b) ↔ c = b.closes := by
  unfold bracket?
  cases b <;> split_ifs <;> simp_all [Bracket.closes]

/-- In a text whose marks are nested the brackets of each kind are balanced. -/
theorem balanced_of_nested {cs : List Char} (h : Nested (marks cs)) (b : Bracket) :
    Balanced b.opens b.closes cs := by
  let p : Mark → Bool := fun
    | .directive _ => false
    | _ => true
  have hbrackets : Nested (brackets cs) := by
    rw [← filter_marks cs (p := p) (fun _ => rfl) (fun _ => rfl) fun _ => rfl]
    exact h.filter (fun _ => rfl) (fun _ => rfl) fun _ => rfl
  exact (hbrackets.balanced b).of_filterMap (fun _ => bracket?_eq_opening)
    fun _ => bracket?_eq_closing

end ClassForge.Text

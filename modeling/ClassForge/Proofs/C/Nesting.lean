import ClassForge.Proofs.C.Code
import ClassForge.Proofs.C.Identifier
import ClassForge.Proofs.Text.Nesting

/-!
# Nesting of generated code

Generated code is made of statements that close in one line the parentheses that they open, and of
calls with their arguments on lines of their own (`Code.Complete`). The text that such code is
written as is nested, at any depth.
-/

namespace ClassForge.C

open Text

/-! ### Lines -/

/-- How many parentheses are open behind a part of a line, if `n` are in front of it. There is no
answer where it closes more than are open, and where it has a brace, a line break or a `#`. -/
def openBehind? : Nat → List Char → Option Nat
  | n, [] => some n
  | n, c :: cs =>
    if c = '(' then openBehind? (n + 1) cs
    else if c = ')' then
      match n with
      | 0 => none
      | n + 1 => openBehind? n cs
    else if c ∈ ['\x7b', '\x7d', '\n', '#'] then none
    else openBehind? n cs

@[simp] theorem openBehind?_append (n : Nat) (cs cs' : List Char) :
    openBehind? n (cs ++ cs') = (openBehind? n cs).bind (openBehind? · cs') := by
  fun_induction openBehind? n cs with
  | case1 => rfl
  | case2 n cs ih => simpa [openBehind?] using ih
  | case3 => simp [openBehind?]
  | case4 cs _ n ih => simpa [openBehind?] using ih
  | case5 => simp [openBehind?, *]
  | case6 n c cs hopen hclose hother ih => simpa [openBehind?, hopen, hclose, hother] using ih

/-- More open parentheses in front do no harm. -/
theorem openBehind?_add {n m : Nat} {cs : List Char} (h : openBehind? n cs = some m) (k : Nat) :
    openBehind? (n + k) cs = some (m + k) := by
  fun_induction openBehind? n cs with
  | case1 n =>
    obtain rfl := Option.some.inj h
    rfl
  | case2 n cs ih => simpa [openBehind?, Nat.add_right_comm] using ih h
  | case3 => cases h
  | case4 cs _ n ih => simpa [openBehind?, Nat.add_right_comm] using ih h
  | case5 => cases h
  | case6 n c cs hopen hclose hother ih => simpa [openBehind?, hopen, hclose, hother] using ih h

/-- A part of a line leaves as many parentheses open as it finds. -/
def Neutral (s : String) : Prop :=
  ∀ n, openBehind? n s.toList = some n

namespace Neutral

variable {s t : String} {names : List String}

theorem behind (h : Neutral s) (n : Nat) : openBehind? n s.toList = some n :=
  h n

theorem of_zero (h : openBehind? 0 s.toList = some 0) : Neutral s := fun n => by
  simpa using openBehind?_add h n

theorem literal {cs : List Char} (h : openBehind? 0 cs = some 0) : Neutral (String.ofList cs) :=
  of_zero (by rwa [String.toList_ofList])

theorem append (hs : Neutral s) (ht : Neutral t) : Neutral (s ++ t) := fun n => by
  rw [String.toList_append, openBehind?_append, hs n]
  exact ht n

theorem of_isIdentifier (h : isIdentifier s = true) : Neutral s := by
  intro n
  have hchars : ∀ c ∈ s.toList, isNameChar c = true := fun c hc => isNameChar_of_mem h hc
  -- the count stays what it is at every character, so `n` is fixed in the induction
  generalize s.toList = cs at hchars ⊢
  induction cs with
  | nil => rfl
  | cons c cs ih =>
    obtain ⟨hc, hcs⟩ := List.forall_mem_cons.1 hchars
    have hne (d : Char) (hd : isNameChar d = false) : c ≠ d := by
      rintro rfl
      rw [hc] at hd
      cases hd
    -- none of the six characters that `openBehind?` looks at can stand in an identifier
    simp [openBehind?, hne '(' rfl, hne ')' rfl, hne '\x7b' rfl, hne '\x7d' rfl, hne '\n' rfl,
      hne '#' rfl, ih hcs]

theorem margin (depth : Nat) : Neutral (Writer.margin depth) := by
  induction depth with
  | zero => exact literal rfl
  | succ depth ih => exact ih.append (literal rfl)

/-- Names with commas between them. -/
theorem commas (h : ∀ s ∈ names, Neutral s) : Neutral (", ".intercalate names) := by
  intro n
  rw [String.toList_intercalate]
  induction names with
  | nil => rfl
  | cons s ss ih =>
    obtain ⟨hs, hss⟩ := List.forall_mem_cons.1 h
    cases ss with
    | nil => simpa using hs n
    | cons t ts =>
      rw [List.map_cons, List.map_cons, List.intercalate_cons_cons, openBehind?_append,
        openBehind?_append, hs n, ← List.map_cons]
      exact ih hss

end Neutral

/-! ### Marks of lines -/

/-- Marks that close `n` parentheses more than they open, and are nested but for that. -/
def Closing : Nat → List Mark → Prop
  | 0, ms => Nested ms
  | n + 1, ms => ∃ inner rest, ms = inner ++ .closing .paren :: rest ∧ Nested inner ∧ Closing n rest

theorem Closing.append {n : Nat} {ms ms' : List Mark} (h : Nested ms) (h' : Closing n ms') :
    Closing n (ms ++ ms') := by
  cases n with
  | zero => exact Nested.append h h'
  | succ n =>
    obtain ⟨inner, rest, rfl, hinner, hrest⟩ := h'
    exact ⟨ms ++ inner, rest, by simp, h.append hinner, hrest⟩

theorem closing_brackets {n : Nat} {cs : List Char} (h : openBehind? n cs = some 0) :
    Closing n (brackets cs) := by
  fun_induction openBehind? n cs with
  | case1 n =>
    obtain rfl := Option.some.inj h
    exact .nil
  -- an opening parenthesis: the first closing one that the rest has too many of is its partner
  | case2 n cs ih =>
    obtain ⟨inner, rest, heq, hinner, hrest⟩ := ih h
    have hpair : brackets ('(' :: cs)
        = (.opening .paren :: inner ++ .closing .paren :: []) ++ rest := by
      rw [show brackets ('(' :: cs) = .opening .paren :: brackets cs from rfl, heq]
      simp
    rw [hpair]
    exact Closing.append (.pair hinner .nil) hrest
  | case3 => cases h
  -- a closing parenthesis, one of those that the text closes more than it opens
  | case4 cs _ n ih => exact ⟨[], brackets cs, rfl, .nil, ih h⟩
  | case5 => cases h
  | case6 n c cs hopen hclose hother ih =>
    have hnone : bracket? c = none := by
      simp only [List.mem_cons, List.not_mem_nil, or_false, not_or] at hother
      simp [bracket?, hopen, hclose, hother]
    rw [show brackets (c :: cs) = brackets cs from List.filterMap_cons_none hnone]
    exact ih h

theorem notMem_of_openBehind? {n m : Nat} {cs : List Char} (h : openBehind? n cs = some m) :
    '\n' ∉ cs ∧ '#' ∉ cs := by
  fun_induction openBehind? n cs with
  | case1 => simp
  | case2 n cs ih => simpa using ih h
  | case3 => cases h
  | case4 cs _ n ih => simpa using ih h
  | case5 => cases h
  | case6 n c cs hopen hclose hother ih =>
    simp only [List.mem_cons, List.not_mem_nil, or_false, not_or] at hother ⊢
    exact ⟨⟨Ne.symm hother.2.2.1, (ih h).1⟩, Ne.symm hother.2.2.2, (ih h).2⟩

theorem directive?_eq_none {row : List Char} (h : '#' ∉ row) : directive? row = none := by
  have hstart : '#' ∉ trimStart row := fun hmem => h ((List.dropWhile_sublist _).subset hmem)
  unfold directive?
  split
  next rest heq => exact absurd (heq ▸ List.mem_cons_self) hstart
  next => rfl

theorem rowMarks_of_notMem {row : List Char} (h : '#' ∉ row) : rowMarks row = brackets row := by
  rw [rowMarks, directive?_eq_none h]
  rfl

namespace Neutral

variable {s : String}

theorem nested (h : Neutral s) : Nested (brackets s.toList) :=
  closing_brackets (h 0)

theorem lineBreak_notMem (h : Neutral s) : '\n' ∉ s.toList :=
  (notMem_of_openBehind? (h 0)).1

theorem hash_notMem (h : Neutral s) : '#' ∉ s.toList :=
  (notMem_of_openBehind? (h 0)).2

end Neutral

/-! ### Rows -/

/-- Rows in none of which a line ends, with the marks in them. -/
structure Marked (rows : List String) (ms : List Mark) : Prop where
  marks : (rows.flatMap fun r => rowMarks r.toList) = ms
  unbroken : ∀ r ∈ rows, '\n' ∉ r.toList

theorem brackets_margin (depth : Nat) : brackets (Writer.margin depth).toList = [] := by
  induction depth with
  | zero => rfl
  | succ depth ih =>
    rw [Writer.margin, String.toList_append, brackets_append, ih]
    rfl

namespace Marked

variable {rows rows' : List String} {ms ms' : List Mark} {s : String} {depth : Nat}

theorem nil : Marked [] [] := ⟨rfl, by simp⟩

theorem append (h : Marked rows ms) (h' : Marked rows' ms') :
    Marked (rows ++ rows') (ms ++ ms') where
  marks := by rw [List.flatMap_append, h.marks, h'.marks]
  unbroken := List.forall_mem_append.2 ⟨h.unbroken, h'.unbroken⟩

/-- A line holds the brackets of what stands behind its margin. -/
theorem line (hbreak : '\n' ∉ s.toList) (hhash : '#' ∉ s.toList) :
    Marked [Writer.margin depth ++ s] (brackets s.toList) where
  marks := by
    have hmargin := (Neutral.margin depth).hash_notMem
    rw [List.flatMap_singleton, String.toList_append, rowMarks_of_notMem (by simp [hmargin, hhash]),
      brackets_append, brackets_margin, List.nil_append]
  unbroken := by simp [(Neutral.margin depth).lineBreak_notMem, hbreak]

theorem neutralLine (h : Neutral s) : Marked [Writer.margin depth ++ s] (brackets s.toList) :=
  line h.lineBreak_notMem h.hash_notMem

/-- The line that starts a call. -/
theorem callLine (h : Neutral s) :
    Marked [Writer.margin depth ++ (s ++ "(")] (brackets s.toList ++ [.opening .paren]) := by
  have hline : Marked [Writer.margin depth ++ (s ++ "(")] (brackets (s ++ "(").toList) :=
    line (by simp [h.lineBreak_notMem]) (by simp [h.hash_notMem])
  rwa [String.toList_append, brackets_append] at hline

theorem ifdef (h : Neutral s) :
    Marked ["#ifdef " ++ s] (.directive "ifdef" :: brackets s.toList) where
  marks := by
    rw [List.flatMap_singleton, String.toList_append, rowMarks, brackets_append]
    rfl
  unbroken := by simp [h.lineBreak_notMem]

end Marked

/-! ### Complete code -/

namespace Code

/-- Every statement stands in one line, or is a call whose arguments stand on lines of their own. -/
inductive Complete : List Code → Prop where
  | nil : Complete []
  | line {s : String} {cs : List Code} (hs : Neutral s) (hcs : Complete cs) :
    Complete (.line s :: cs)
  | blank {cs : List Code} (hcs : Complete cs) : Complete (.blank :: cs)
  | block {body cs : List Code} (hbody : Complete body) (hcs : Complete cs) :
    Complete (.block body :: cs)
  | deeper {body cs : List Code} (hbody : Complete body) (hcs : Complete cs) :
    Complete (.deeper body :: cs)
  | call {callee : String} {arguments cs : List Code} (hcallee : Neutral callee)
    (harguments : Complete arguments) (hcs : Complete cs) :
    Complete (.line (callee ++ "(") :: .deeper arguments :: .line ");" :: cs)
  | whenDefined {symbol : String} {body cs : List Code} (hsymbol : Neutral symbol)
    (hbody : Complete body) (hcs : Complete cs) : Complete (.whenDefined symbol body :: cs)
  | ifDefined {symbol : String} {body otherwise cs : List Code} (hsymbol : Neutral symbol)
    (hbody : Complete body) (hotherwise : Complete otherwise) (hcs : Complete cs) :
    Complete (.ifDefined symbol body otherwise :: cs)

namespace Complete

variable {cs cs' : List Code}

theorem append (h : Complete cs) (h' : Complete cs') : Complete (cs ++ cs') := by
  induction h with
  | nil => exact h'
  | line hs _ ih => exact .line hs ih
  | blank _ ih => exact .blank ih
  | block hbody _ _ ih => exact .block hbody ih
  | deeper hbody _ _ ih => exact .deeper hbody ih
  | call hcallee harguments _ _ ih => exact .call hcallee harguments ih
  | whenDefined hsymbol hbody _ _ ih => exact .whenDefined hsymbol hbody ih
  | ifDefined hsymbol hbody hotherwise _ _ _ ih => exact .ifDefined hsymbol hbody hotherwise ih

theorem flatMap {α : Type} {l : List α} {f : α → List Code} (h : ∀ a ∈ l, Complete (f a)) :
    Complete (l.flatMap f) := by
  induction l with
  | nil => exact nil
  | cons a l ih =>
    obtain ⟨ha, hl⟩ := List.forall_mem_cons.1 h
    exact ha.append (ih hl)

/-- Complete code is written as rows with nested marks. -/
theorem exists_marked (h : Complete cs) (depth : Nat) :
    ∃ ms, Nested ms ∧ Marked (allRows depth cs) ms := by
  -- the rows of a piece have marks that nest, whatever the depth at which it is written
  induction h generalizing depth with
  | nil => exact ⟨[], .nil, .nil⟩
  | line hs _ ih =>
    obtain ⟨ms, hms, hrest⟩ := ih depth
    exact ⟨_, hs.nested.append hms, (Marked.neutralLine hs).append hrest⟩
  | blank _ ih =>
    obtain ⟨ms, hms, hrest⟩ := ih depth
    have hblank : Marked [""] [] := ⟨rfl, by decide⟩
    exact ⟨_, hms, hblank.append hrest⟩
  | block _ _ ih ih' =>
    obtain ⟨ms, hms, hbody⟩ := ih (depth + 1)
    obtain ⟨ms', hms', hrest⟩ := ih' depth
    -- the braces stand on rows of their own around the marks of the body
    have hopen : Marked [Writer.margin depth ++ "\x7b"] [.opening .brace] :=
      .line (by decide) (by decide)
    have hclose : Marked [Writer.margin depth ++ "\x7d"] [.closing .brace] :=
      .line (by decide) (by decide)
    refine ⟨_, .pair (b := .brace) hms hms', ?_⟩
    simpa [allRows, rows] using (hopen.append hbody).append (hclose.append hrest)
  | deeper _ _ ih ih' =>
    obtain ⟨ms, hms, hbody⟩ := ih (depth + 1)
    obtain ⟨ms', hms', hrest⟩ := ih' depth
    exact ⟨_, hms.append hms', hbody.append hrest⟩
  | call hcallee _ _ ih ih' =>
    obtain ⟨ms, hms, harguments⟩ := ih (depth + 1)
    obtain ⟨ms', hms', hrest⟩ := ih' depth
    have hclose : Marked [Writer.margin depth ++ ");"] [.closing .paren] :=
      .line (by decide) (by decide)
    -- the parenthesis that the callee's row leaves open is closed behind the arguments
    refine ⟨_, hcallee.nested.append (.pair (b := .paren) hms hms'), ?_⟩
    simpa [allRows, rows] using
      ((Marked.callLine hcallee).append harguments).append (hclose.append hrest)
  | whenDefined hsymbol _ _ ih ih' =>
    obtain ⟨ms, hms, hbody⟩ := ih depth
    obtain ⟨ms', hms', hrest⟩ := ih' depth
    have hend : Marked ["#endif"] [.directive "endif"] := ⟨rfl, by decide⟩
    -- what the row of the symbol has of its own nests with the body
    refine ⟨_, .conditional (hsymbol.nested.append hms) hms', ?_⟩
    simpa [allRows, rows] using ((Marked.ifdef hsymbol).append hbody).append (hend.append hrest)
  | ifDefined hsymbol _ _ _ ih ih' ih'' =>
    obtain ⟨ms, hms, hbody⟩ := ih depth
    obtain ⟨ms', hms', hotherwise⟩ := ih' depth
    obtain ⟨ms'', hms'', hrest⟩ := ih'' depth
    have helse : Marked ["#else"] [.directive "else"] := ⟨rfl, by decide⟩
    have hend : Marked ["#endif"] [.directive "endif"] := ⟨rfl, by decide⟩
    -- each branch nests by itself, and the two of them share the directives
    refine ⟨_, .alternative (hsymbol.nested.append hms) hms' hms'', ?_⟩
    simpa [allRows, rows] using ((Marked.ifdef hsymbol).append hbody).append
      ((helse.append hotherwise).append (hend.append hrest))

/-- The text of complete code is nested. -/
theorem nested_bodyText (h : Complete cs) : Nested (marks (bodyText cs).toList) := by
  obtain ⟨ms, hms, hmarked⟩ := h.exists_marked 1
  rw [marks, lines_bodyText hmarked.unbroken, List.flatMap_append, List.flatMap_map, hmarked.marks]
  exact hms.append .nil

end Complete

end Code

/-- A function whose body is complete code. -/
def FunctionDef.Complete (f : FunctionDef) : Prop :=
  ∃ code, f.body = .generated code ∧ Code.Complete code

end ClassForge.C

import Mathlib.Data.List.DropRight
import ClassForge.Text.Blank

/-!
# Words and trimmed texts

Trimming takes off the blanks at the ends of a text, and nothing else. The blanks inside it come
between its words: a text without blanks at the ends is its words, with blanks between them.
-/

namespace ClassForge.Text

/-! ### The ends of a list -/

section Ends

variable {α β : Type} {p : α → Bool} {front back xs : List α}

/-- The list without the elements of a sort at either end. -/
def dropEnds (p : α → Bool) (xs : List α) : List α :=
  (xs.dropWhile p).rdropWhile p

theorem exists_dropEnds (p : α → Bool) (xs : List α) :
    ∃ front back, (∀ x ∈ front, p x = true) ∧ (∀ x ∈ back, p x = true) ∧
      xs = front ++ (dropEnds p xs ++ back) := by
  refine ⟨xs.takeWhile p, (xs.dropWhile p).rtakeWhile p, fun _ => List.mem_takeWhile_imp,
    fun _ => List.mem_rtakeWhile_imp, ?_⟩
  rw [dropEnds, List.rdropWhile_append_rtakeWhile, List.takeWhile_append_dropWhile]

theorem getLast?_rdropWhile (p : α → Bool) (xs : List α) :
    ∀ x ∈ (xs.rdropWhile p).getLast?, p x = false := by
  intro x hx
  have h := List.head?_dropWhile_not p xs.reverse
  rw [List.rdropWhile, List.getLast?_reverse] at hx
  rw [Option.mem_def.1 hx] at h
  exact h

theorem head?_dropEnds (p : α → Bool) (xs : List α) :
    ∀ x ∈ (dropEnds p xs).head?, p x = false := by
  intro x hx
  obtain ⟨back, hback⟩ := List.rdropWhile_prefix p (xs.dropWhile p)
  have h := List.head?_dropWhile_not p xs
  rw [← hback, List.head?_append, ← dropEnds, Option.mem_def.1 hx] at h
  exact h

theorem getLast?_dropEnds (p : α → Bool) (xs : List α) :
    ∀ x ∈ (dropEnds p xs).getLast?, p x = false :=
  getLast?_rdropWhile p _

theorem dropEnds_append (hfront : ∀ x ∈ front, p x = true) (hback : ∀ x ∈ back, p x = true)
    (xs : List α) : dropEnds p (front ++ (xs ++ back)) = dropEnds p xs := by
  have hreverse : ∀ x ∈ back.reverse, p x = true := fun x hx => hback x (List.mem_reverse.1 hx)
  rw [dropEnds, dropEnds, List.dropWhile_append_of_pos hfront, List.dropWhile_append]
  split
  next hempty => rw [List.dropWhile_eq_nil_iff.2 hback, List.isEmpty_iff.1 hempty]
  next =>
    rw [List.rdropWhile, List.rdropWhile, List.reverse_append,
      List.dropWhile_append_of_pos hreverse]

theorem dropEnds_eq_self (hfirst : ∀ x ∈ xs.head?, p x = false)
    (hlast : ∀ x ∈ xs.getLast?, p x = false) : dropEnds p xs = xs := by
  have hstart : xs.dropWhile p = xs := by
    cases xs with
    | nil => rfl
    | cons x xs => exact List.dropWhile_cons_of_neg (by simp [hfirst x rfl])
  rw [dropEnds, hstart, List.rdropWhile_eq_self_iff]
  intro hne
  simp [hlast _ (List.getLast?_eq_some_getLast hne)]

theorem dropEnds_map (f : β → α) (p : α → Bool) (xs : List β) :
    dropEnds p (xs.map f) = (dropEnds (p ∘ f) xs).map f := by
  rw [dropEnds, dropEnds, List.dropWhile_map, List.rdropWhile, List.rdropWhile, ← List.map_reverse,
    List.dropWhile_map, List.map_reverse]

end Ends

/-! ### Blanks -/

/-- A text of blanks alone. -/
def Blanks (cs : List Char) : Prop :=
  ∀ c ∈ cs, isBlank c = true

theorem blanks_nil : Blanks [] :=
  List.forall_mem_nil _

/-! ### Trimmed texts -/

/-- A text with no blank at either end. -/
structure Trimmed (cs : List Char) : Prop where
  first : ∀ c ∈ cs.head?, isBlank c = false
  last : ∀ c ∈ cs.getLast?, isBlank c = false

/-- A text with no blank at either end is left as it is. -/
theorem trim_eq_self {cs : List Char} (hfirst : ∀ c ∈ cs.head?, isBlank c = false)
    (hlast : ∀ c ∈ cs.getLast?, isBlank c = false) : trim cs = cs :=
  dropEnds_eq_self hfirst hlast

/-- What trimming takes off. -/
theorem exists_trim (cs : List Char) :
    ∃ front back, Blanks front ∧ Blanks back ∧ cs = front ++ (trim cs ++ back) :=
  exists_dropEnds isBlank cs

theorem trimmed_trim (cs : List Char) : Trimmed (trim cs) :=
  ⟨head?_dropEnds isBlank cs, getLast?_dropEnds isBlank cs⟩

theorem Trimmed.eq_nil_of_blanks {cs back : List Char} (h : Trimmed (cs ++ back))
    (hback : Blanks back) : back = [] := by
  by_contra hne
  have hlast := h.last (back.getLast hne) (by simp [List.getLast?_eq_some_getLast hne])
  rw [hback _ (List.getLast_mem hne)] at hlast
  cases hlast

/-- Blanks around a text are what is trimmed. -/
theorem trim_append_append {front back : List Char} (hfront : Blanks front) (hback : Blanks back)
    (cs : List Char) : trim (front ++ (cs ++ back)) = trim cs :=
  dropEnds_append hfront hback cs

theorem trim_append_left {front : List Char} (hfront : Blanks front) (cs : List Char) :
    trim (front ++ cs) = trim cs := by
  simpa using trim_append_append hfront blanks_nil cs

theorem trim_of_blanks {front cs back : List Char} (hfront : Blanks front) (hback : Blanks back)
    (hcs : Trimmed cs) : trim (front ++ (cs ++ back)) = cs := by
  rw [trim_append_append hfront hback, trim_eq_self hcs.first hcs.last]

/-! ### Words -/

/-- A text that is one word. -/
def IsWord (w : List Char) : Prop :=
  w ≠ [] ∧ ∀ c ∈ w, isBlank c = false

/-- Words with blanks between them, and none at the ends. -/
inductive Spaced : List (List Char) → List Char → Prop
  | single {w : List Char} (hw : IsWord w) : Spaced [w] w
  | cons {w gap cs : List Char} {ws : List (List Char)} (hw : IsWord w) (hgap : Blanks gap)
      (hne : gap ≠ []) (hrest : Spaced ws cs) : Spaced (w :: ws) (w ++ gap ++ cs)

theorem pieces_eq_splitOnP (cut : Char → Bool) (cs : List Char) :
    pieces cut cs = cs.splitOnP cut := by
  induction cs with
  | nil => rfl
  | cons c cs ih =>
    rw [pieces, ih, List.splitOnP_cons_eq_if_modifyHead]
    cases hsplit : cs.splitOnP cut with
    | nil => exact absurd hsplit (List.splitOnP_ne_nil cut cs)
    | cons p ps => rfl

/-- A text that is cut at a character is cut on either side of it. -/
theorem pieces_append_cons {cut : Char → Bool} {c : Char} (hc : cut c = true) (xs ys : List Char) :
    pieces cut (xs ++ c :: ys) = pieces cut xs ++ pieces cut ys := by
  rw [pieces_eq_splitOnP, pieces_eq_splitOnP, pieces_eq_splitOnP, List.splitOnP_append_cons xs ys hc]

theorem pieces_eq_singleton {cut : Char → Bool} {cs : List Char}
    (h : ∀ c ∈ cs, cut c = false) : pieces cut cs = [cs] := by
  rw [pieces_eq_splitOnP, List.splitOnP_eq_singleton h]

theorem pieces_ne_nil (cut : Char → Bool) (cs : List Char) : pieces cut cs ≠ [] := by
  rw [pieces_eq_splitOnP]
  exact List.splitOnP_ne_nil cut cs

/-- No piece has a character at which the text is cut. -/
theorem eq_false_of_mem_pieces {cut : Char → Bool} {cs p : List Char} (hp : p ∈ pieces cut cs) :
    ∀ c ∈ p, cut c = false := by
  induction cs generalizing p with
  | nil =>
    rw [List.mem_singleton.1 hp]
    exact List.forall_mem_nil _
  | cons c cs ih =>
    rw [pieces] at hp
    cases hpieces : pieces cut cs with
    | nil => exact absurd hpieces (pieces_ne_nil cut cs)
    | cons q qs =>
      rw [hpieces] at ih
      simp only [hpieces] at hp
      -- the character ends a piece, or it is part of the first one
      by_cases hc : cut c = true
      · rw [if_pos hc] at hp
        rcases List.mem_cons.1 hp with rfl | hp
        · exact List.forall_mem_nil _
        · exact ih hp
      · rw [if_neg hc] at hp
        rcases List.mem_cons.1 hp with rfl | hp
        · exact List.forall_mem_cons.2 ⟨Bool.eq_false_iff.2 hc, ih List.mem_cons_self⟩
        · exact ih (List.mem_cons_of_mem _ hp)

/-- Words are on one side of a blank or on the other. -/
theorem words_append_blank {c : Char} (hc : isBlank c = true) (xs ys : List Char) :
    words (xs ++ c :: ys) = words xs ++ words ys := by
  rw [words, words, words, pieces_append_cons hc, List.filter_append]

theorem words_blanks_append {gap : List Char} (hgap : Blanks gap) (cs : List Char) :
    words (gap ++ cs) = words cs := by
  induction gap with
  | nil => rfl
  | cons c gap ih =>
    have hwords := words_append_blank (hgap c List.mem_cons_self) [] (gap ++ cs)
    rw [List.cons_append, ← ih fun d hd => hgap d (List.mem_cons_of_mem _ hd)]
    exact hwords

theorem IsWord.words_eq {w : List Char} (hw : IsWord w) : words w = [w] := by
  rw [words, pieces_eq_singleton hw.2]
  simp [hw.1]

theorem IsWord.trimmed {w : List Char} (hw : IsWord w) : Trimmed w :=
  ⟨fun c hc => hw.2 c (List.mem_of_mem_head? hc), fun c hc => hw.2 c (List.mem_of_getLast? hc)⟩

theorem Spaced.ne_nil {ws : List (List Char)} {cs : List Char} (h : Spaced ws cs) : cs ≠ [] := by
  cases h with
  | single hw => exact hw.1
  | cons _ _ hne => simp [hne]

theorem Spaced.words_eq {ws : List (List Char)} {cs : List Char} (h : Spaced ws cs) :
    words cs = ws := by
  induction h with
  | single hw => exact hw.words_eq
  | @cons w gap cs ws hw hgap hne _ ih =>
    obtain ⟨c, gap, rfl⟩ := List.exists_cons_of_ne_nil hne
    rw [List.append_assoc, List.cons_append, words_append_blank (hgap c List.mem_cons_self),
      hw.words_eq, words_blanks_append fun d hd => hgap d (List.mem_cons_of_mem _ hd), ih]
    rfl

theorem Spaced.trimmed {ws : List (List Char)} {cs : List Char} (h : Spaced ws cs) :
    Trimmed cs := by
  induction h with
  | single hw => exact hw.trimmed
  | @cons w gap cs ws hw _ _ hrest ih =>
    refine ⟨fun c hc => hw.trimmed.first c ?_, fun c hc => ih.last c ?_⟩
    · obtain ⟨d, ds, rfl⟩ := List.exists_cons_of_ne_nil hw.1
      exact hc
    · rwa [List.getLast?_append, List.getLast?_eq_some_getLast hrest.ne_nil, Option.some_or,
        ← List.getLast?_eq_some_getLast hrest.ne_nil] at hc

theorem Spaced.ne_nil_words {ws : List (List Char)} {cs : List Char} (h : Spaced ws cs) :
    ws ≠ [] := by
  cases h <;> exact List.cons_ne_nil _ _

theorem Spaced.isWord {ws : List (List Char)} {cs : List Char} (h : Spaced ws cs) :
    ∀ w ∈ ws, IsWord w := by
  induction h with
  | single hw => exact List.forall_mem_singleton.2 hw
  | cons hw _ _ _ ih => exact List.forall_mem_cons.2 ⟨hw, ih⟩

theorem Spaced.isBlank_or_mem {ws : List (List Char)} {cs : List Char} (h : Spaced ws cs) :
    ∀ c ∈ cs, isBlank c = true ∨ ∃ w ∈ ws, c ∈ w := by
  induction h with
  | single _ => exact fun c hc => .inr ⟨_, List.mem_cons_self, hc⟩
  | cons _ hgap _ _ ih =>
    intro c hc
    rcases List.mem_append.1 hc with hc | hc
    · rcases List.mem_append.1 hc with hc | hc
      · exact .inr ⟨_, List.mem_cons_self, hc⟩
      · exact .inl (hgap c hc)
    · exact (ih c hc).imp_right fun ⟨w, hw, hmem⟩ => ⟨w, List.mem_cons_of_mem _ hw, hmem⟩

theorem Spaced.intercalate {ws : List (List Char)} (hne : ws ≠ []) (hws : ∀ w ∈ ws, IsWord w) :
    Spaced ws ([' '].intercalate ws) := by
  induction ws with
  | nil => exact absurd rfl hne
  | cons w ws ih =>
    have hw := hws w List.mem_cons_self
    cases ws with
    | nil =>
      rw [List.intercalate_singleton]
      exact .single hw
    | cons v vs =>
      have hrest := ih (List.cons_ne_nil v vs) fun u hu => hws u (List.mem_cons_of_mem _ hu)
      have hspace : Blanks [' '] := fun c hc => by rw [List.mem_singleton.1 hc]; rfl
      rw [List.intercalate_cons_cons]
      exact .cons hw hspace (List.cons_ne_nil ' ' []) hrest

/-- A character more, where the first word begins. -/
theorem Spaced.extend {ws : List (List Char)} {cs : List Char} (h : Spaced ws cs) {c : Char}
    (hc : isBlank c = false) : ∃ ws', Spaced ws' (c :: cs) := by
  have hword {w : List Char} (hw : IsWord w) : IsWord (c :: w) :=
    ⟨List.cons_ne_nil c w, List.forall_mem_cons.2 ⟨hc, hw.2⟩⟩
  cases h with
  | single hw => exact ⟨_, .single (hword hw)⟩
  | cons hw hgap hne hrest => exact ⟨_, .cons (hword hw) hgap hne hrest⟩

/-- A text that ends in a word has blanks in front, then its words. -/
theorem exists_blanks_spaced {cs : List Char} (hne : cs ≠ [])
    (hlast : ∀ c ∈ cs.getLast?, isBlank c = false) :
    ∃ gap ws rest, Blanks gap ∧ Spaced ws rest ∧ cs = gap ++ rest := by
  induction cs with
  | nil => exact absurd rfl hne
  | cons c cs ih =>
    cases cs with
    | nil =>
      have hword : IsWord [c] := ⟨hne, List.forall_mem_singleton.2 (hlast c rfl)⟩
      exact ⟨[], _, [c], blanks_nil, .single hword, rfl⟩
    | cons d ds =>
      obtain ⟨gap, ws, rest, hgap, hrest, heq⟩ := ih (List.cons_ne_nil d ds) hlast
      rw [heq]
      cases hc : isBlank c with
      | true => exact ⟨c :: gap, ws, rest, List.forall_mem_cons.2 ⟨hc, hgap⟩, hrest, rfl⟩
      | false =>
        -- the character is a word of its own where blanks come next
        by_cases hempty : gap = []
        · subst hempty
          obtain ⟨ws', hmore⟩ := hrest.extend hc
          exact ⟨[], ws', c :: rest, blanks_nil, hmore, rfl⟩
        · have hword : IsWord [c] := ⟨List.cons_ne_nil c [], List.forall_mem_singleton.2 hc⟩
          exact ⟨[], _, _, blanks_nil, .cons hword hgap hempty hrest, rfl⟩

/-- A text is spaced words just when it is not empty and has no blanks at the ends, and the words
are its words. -/
theorem spaced_iff {ws : List (List Char)} {cs : List Char} :
    Spaced ws cs ↔ cs ≠ [] ∧ Trimmed cs ∧ words cs = ws := by
  refine ⟨fun h => ⟨h.ne_nil, h.trimmed, h.words_eq⟩, ?_⟩
  rintro ⟨hne, htrimmed, rfl⟩
  obtain ⟨gap, ws, rest, hgap, hrest, rfl⟩ := exists_blanks_spaced hne htrimmed.last
  -- a blank in front would be one that trimming left
  cases gap with
  | nil =>
    rw [List.nil_append, hrest.words_eq]
    exact hrest
  | cons c gap =>
    have hfirst := htrimmed.first c rfl
    rw [hgap c List.mem_cons_self] at hfirst
    cases hfirst

theorem words_squeeze {cs : List Char} (h : Trimmed cs) (hne : cs ≠ []) :
    words (squeeze cs) = words cs := by
  have hspaced := spaced_iff.2 ⟨hne, h, rfl⟩
  exact (Spaced.intercalate hspaced.ne_nil_words hspaced.isWord).words_eq

end ClassForge.Text

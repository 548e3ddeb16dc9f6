import Mathlib.Data.List.Forall2
import ClassForge.Proofs.Text.Words
import ClassForge.Text.Indent

/-!
# Re-indented bodies

Re-indenting a body keeps the lines from the first to the last that is not blank, with what stands
in them, and sets them at one level (`Level`): four spaces are in front of each, and the line that
stood furthest to the left has these spaces alone. Where the body stood before has no say in this. A
body that is at one level already is left as it is, and one that is moved to the right as a whole
comes out the same, whatever the blanks are and wherever a cut falls.
-/

namespace ClassForge.Text

variable {cs front line run : List Char} {ls : List (List Char)} {n : Nat}

/-! ### Lines -/

theorem lines_eq_splitOn (cs : List Char) : lines cs = cs.splitOn '\n' :=
  pieces_eq_splitOnP _ cs

theorem notMem_of_mem_lines (h : line ∈ lines cs) : '\n' ∉ line :=
  fun hmem => absurd (eq_false_of_mem_pieces h _ hmem) (by decide)

/-- The lines of a text in which each line is ended. -/
theorem lines_flatMap (h : ∀ l ∈ ls, '\n' ∉ l) : lines (ls.flatMap (· ++ ['\n'])) = ls ++ [[]] := by
  induction ls with
  | nil => rfl
  | cons l ls ih =>
    obtain ⟨hl, hls⟩ := List.forall_mem_cons.1 h
    have hpiece : pieces (· == '\n') l = [l] :=
      pieces_eq_singleton fun c hc => beq_false_of_ne (ne_of_mem_of_not_mem hc hl)
    rw [List.flatMap_cons, List.append_assoc, List.singleton_append, lines, pieces_append_cons rfl,
      hpiece, ← lines, ih hls]
    rfl

theorem isBlankLine_eq_true : isBlankLine line = true ↔ Blanks line :=
  List.all_eq_true

theorem isBlankLine_iff : isBlankLine line = true ↔ trim line = [] := by
  rw [isBlankLine_eq_true]
  constructor
  · intro h
    have htrim := trim_append_left h []
    rw [List.append_nil] at htrim
    exact htrim
  · intro h
    obtain ⟨front, back, hfront, hback, heq⟩ := exists_trim line
    rw [heq, h]
    exact List.forall_mem_append.2 ⟨hfront, hback⟩

/-- What is trimmed alike is blank alike. -/
theorem isBlankLine_congr {line' : List Char} (h : trim line = trim line') :
    isBlankLine line = isBlankLine line' := by
  rw [Bool.eq_iff_iff, isBlankLine_iff, isBlankLine_iff, h]

theorem trimEnd_eq_self (h : ∀ c ∈ cs.getLast?, isBlank c = false) : trimEnd cs = cs :=
  List.rdropWhile_eq_self_iff.2 fun hne => by simp [h _ (List.getLast?_eq_some_getLast hne)]

/-! ### Margins -/

theorem byteLength_append (xs ys : List Char) :
    byteLength (xs ++ ys) = byteLength xs + byteLength ys := by
  induction xs with
  | nil => exact (Nat.zero_add _).symm
  | cons c xs ih => rw [List.cons_append, byteLength, byteLength, ih, Nat.add_assoc]

theorem margin_append (hfront : Blanks front) :
    margin (front ++ line) = byteLength front + margin line := by
  rw [margin, List.takeWhile_append_of_pos hfront, byteLength_append, margin]

/-- The margin that lines share is the least of theirs. -/
theorem commonMargin_eq_iff (hne : ∃ l ∈ ls, isBlankLine l = false) :
    commonMargin ls = n ↔ (∃ l ∈ ls, isBlankLine l = false ∧ margin l = n) ∧
      ∀ l ∈ ls, isBlankLine l = false → n ≤ margin l := by
  have hmin : ((ls.filter (!isBlankLine ·)).map margin).min? = some (commonMargin ls) := by
    rw [commonMargin]
    cases hmin : ((ls.filter (!isBlankLine ·)).map margin).min? with
    | some m => rfl
    | none =>
      -- a minimum exists, since not all lines are blank
      obtain ⟨l, hl, hblank⟩ := hne
      have hmem : l ∈ ls.filter (!isBlankLine ·) := List.mem_filter.2 ⟨hl, by simp [hblank]⟩
      rw [List.min?_eq_none_iff, List.map_eq_nil_iff] at hmin
      rw [hmin] at hmem
      cases hmem
  rw [← Option.some_inj, ← hmin, List.min?_eq_some_iff]
  simp only [List.mem_map, List.mem_filter, Bool.not_eq_true', and_assoc]
  refine and_congr_right fun _ => ⟨fun h l hl hblank => h _ ⟨l, hl, hblank, rfl⟩, ?_⟩
  rintro h _ ⟨l, hl, hblank, rfl⟩
  exact h l hl hblank

/-! ### Cuts -/

/-- A line without a margin of `n` bytes. -/
def cut (n : Nat) (line : List Char) : List Char :=
  (dropBytes? n line).getD (trimStart line)

theorem cut_zero (line : List Char) : cut 0 line = line := by
  rw [cut, dropBytes?, Option.getD_some]

theorem dropBytes?_cons {c : Char} (hn : 0 < n) : dropBytes? n (c :: cs) =
    if c.utf8Size ≤ n then dropBytes? (n - c.utf8Size) cs else none := by
  cases n with
  | zero => cases hn
  | succ n => rfl

theorem dropBytes?_append : dropBytes? (byteLength front + n) (front ++ cs) = dropBytes? n cs := by
  induction front with
  | nil => rw [byteLength, Nat.zero_add, List.nil_append]
  | cons c front ih =>
    have hc := c.utf8Size_pos
    have hrest : c.utf8Size + byteLength front + n - c.utf8Size = byteLength front + n := by omega
    rw [byteLength, List.cons_append, dropBytes?_cons (by omega), if_pos (by omega), hrest, ih]

/-- Blanks in front, and a margin that is larger by them. -/
theorem cut_append (hfront : Blanks front) (n : Nat) (line : List Char) :
    cut (byteLength front + n) (front ++ line) = cut n line := by
  rw [cut, dropBytes?_append, trimStart, List.dropWhile_append_of_pos hfront, ← trimStart, cut]

theorem cut_byteLength (hfront : Blanks front) (line : List Char) :
    cut (byteLength front) (front ++ line) = line := by
  have h := cut_append hfront 0 line
  rwa [Nat.add_zero, cut_zero] at h

theorem cut_margin (line : List Char) : cut (margin line) line = trimStart line := by
  have hblanks : Blanks (line.takeWhile isBlank) := fun _ => List.mem_takeWhile_imp
  have h := cut_byteLength hblanks (trimStart line)
  rwa [trimStart, List.takeWhile_append_dropWhile] at h

/-- A cut within the margin takes blanks off, wherever it falls. -/
theorem exists_cut (h : n ≤ margin line) : ∃ front, Blanks front ∧ line = front ++ cut n line := by
  induction line generalizing n with
  | nil =>
    obtain rfl : n = 0 := Nat.le_zero.1 h
    exact ⟨[], blanks_nil, by rw [cut_zero, List.nil_append]⟩
  | cons c cs ih =>
    rcases Nat.eq_zero_or_pos n with rfl | hn
    · exact ⟨[], blanks_nil, by rw [cut_zero, List.nil_append]⟩
    have hc : isBlank c = true := by
      by_contra hc
      rw [margin, List.takeWhile_cons_of_neg hc] at h
      exact absurd h (Nat.not_le.2 hn)
    by_cases hsize : c.utf8Size ≤ n
    · have hmargin : margin (c :: cs) = c.utf8Size + margin cs := by
        rw [margin, List.takeWhile_cons_of_pos hc, byteLength, margin]
      have hrest : n - c.utf8Size ≤ margin cs := by omega
      obtain ⟨front, hfront, heq⟩ := ih hrest
      refine ⟨c :: front, List.forall_mem_cons.2 ⟨hc, hfront⟩, ?_⟩
      rw [List.cons_append, cut, dropBytes?_cons hn, if_pos hsize, trimStart,
        List.dropWhile_cons_of_pos hc, ← trimStart, ← cut, ← heq]
    · -- the cut falls inside the first blank, and all blanks go
      refine ⟨(c :: cs).takeWhile isBlank, fun _ => List.mem_takeWhile_imp, ?_⟩
      rw [cut, dropBytes?_cons hn, if_neg hsize, Option.getD_none, trimStart,
        List.takeWhile_append_dropWhile]

/-! ### One level -/

/-- What one level puts in front of a line. -/
def oneLevel : List Char :=
  List.replicate 4 ' '

theorem blanks_oneLevel : Blanks oneLevel :=
  fun _ hc => List.eq_of_mem_replicate hc ▸ rfl

theorem indentLine_of_blank (h : isBlankLine line = true) : indentLine n line = [] := by
  rw [indentLine, if_pos h]

theorem indentLine_of_not_blank (h : isBlankLine line = false) :
    indentLine n line = oneLevel ++ trimEnd (cut n line) := by
  rw [indentLine, h, if_neg Bool.false_ne_true, oneLevel, cut]

/-- A line that is not blank keeps what it holds between blanks. -/
theorem exists_indentLine (h : isBlankLine line = false) (hn : n ≤ margin line) :
    ∃ front rest back, Blanks front ∧ Blanks back ∧ line = front ++ (rest ++ back) ∧
      indentLine n line = oneLevel ++ rest ∧ rest ≠ [] ∧ ∀ c ∈ rest.getLast?, isBlank c = false := by
  obtain ⟨front, hfront, hcut⟩ := exists_cut hn
  have hrest : trimEnd (cut n line) ++ (cut n line).rtakeWhile isBlank = cut n line :=
    List.rdropWhile_append_rtakeWhile
  have hback : Blanks ((cut n line).rtakeWhile isBlank) := fun _ => List.mem_rtakeWhile_imp
  refine ⟨front, trimEnd (cut n line), _, hfront, hback, by rw [hrest, ← hcut],
    indentLine_of_not_blank h, ?_, getLast?_rdropWhile isBlank _⟩
  intro hempty
  rw [hempty, List.nil_append] at hrest
  rw [← hrest] at hcut
  -- a rest of blanks would make the whole line blank
  have hblank : isBlankLine line = true := by
    rw [hcut, isBlankLine_eq_true]
    exact List.forall_mem_append.2 ⟨hfront, hback⟩
  rw [h] at hblank
  cases hblank

theorem trim_indentLine (hn : isBlankLine line = false → n ≤ margin line) :
    trim (indentLine n line) = trim line := by
  cases h : isBlankLine line with
  | true => rw [indentLine_of_blank h, isBlankLine_iff.1 h, isBlankLine_iff.1 rfl]
  | false =>
    obtain ⟨front, rest, back, hfront, hback, hline, hindent, -⟩ := exists_indentLine h (hn h)
    rw [hindent, hline, trim_append_append hfront hback, trim_append_left blanks_oneLevel]

theorem isBlankLine_indentLine (hn : isBlankLine line = false → n ≤ margin line) :
    isBlankLine (indentLine n line) = isBlankLine line :=
  isBlankLine_congr (trim_indentLine hn)

theorem notMem_indentLine (hn : isBlankLine line = false → n ≤ margin line) (h : '\n' ∉ line) :
    '\n' ∉ indentLine n line := by
  cases hblank : isBlankLine line with
  | true =>
    rw [indentLine_of_blank hblank]
    exact List.not_mem_nil
  | false =>
    obtain ⟨front, rest, back, -, -, hline, hindent, -⟩ := exists_indentLine hblank (hn hblank)
    rw [hindent, List.mem_append, not_or]
    refine ⟨by decide, fun hmem => h ?_⟩
    rw [hline]
    exact List.mem_append_right _ (List.mem_append_left _ hmem)

theorem getLast?_indentLine (hn : isBlankLine line = false → n ≤ margin line) :
    ∀ c ∈ (indentLine n line).getLast?, isBlank c = false := by
  cases hblank : isBlankLine line with
  | true =>
    rw [indentLine_of_blank hblank]
    nofun
  | false =>
    obtain ⟨front, rest, back, -, -, -, hindent, hne, hlast⟩ := exists_indentLine hblank (hn hblank)
    rw [hindent, List.getLast?_append_of_ne_nil _ hne]
    exact hlast

/-- A line loses all blanks in front where the cut is as wide as its margin. -/
theorem exists_indentLine_margin (h : isBlankLine line = false) :
    ∃ c rest, indentLine (margin line) line = oneLevel ++ c :: rest ∧ isBlank c = false := by
  cases htrim : trim line with
  | nil =>
    rw [isBlankLine_iff.2 htrim] at h
    cases h
  | cons c rest =>
    refine ⟨c, rest, ?_, (trimmed_trim line).first c (htrim ▸ rfl)⟩
    rw [indentLine_of_not_blank h, cut_margin, ← trim, htrim]

/-- Lines at one level. -/
structure Level (ls : List (List Char)) : Prop where
  unbroken : ∀ l ∈ ls, '\n' ∉ l
  first : ∀ l ∈ ls.head?, isBlankLine l = false
  last : ∀ l ∈ ls.getLast?, isBlankLine l = false
  /-- A blank line is empty, any other is indented. -/
  blank : ∀ l ∈ ls, isBlankLine l = true → l = []
  indented : ∀ l ∈ ls, isBlankLine l = false → ∃ rest, l = oneLevel ++ rest
  closed : ∀ l ∈ ls, ∀ c ∈ l.getLast?, isBlank c = false
  /-- Some line is not further to the right than that. -/
  flush : ls ≠ [] → ∃ c rest, oneLevel ++ c :: rest ∈ ls ∧ isBlank c = false

theorem commonMargin_le (hl : line ∈ ls) (hline : isBlankLine line = false) :
    commonMargin ls ≤ margin line :=
  ((commonMargin_eq_iff ⟨line, hl, hline⟩).1 rfl).2 line hl hline

theorem level_map_indentLine (hunbroken : ∀ l ∈ ls, '\n' ∉ l)
    (hfirst : ∀ l ∈ ls.head?, isBlankLine l = false)
    (hlast : ∀ l ∈ ls.getLast?, isBlankLine l = false) :
    Level (ls.map (indentLine (commonMargin ls))) := by
  -- blank lines stay blank and no other line becomes one
  have hsame : ∀ l ∈ ls, isBlankLine (indentLine (commonMargin ls) l) = isBlankLine l :=
    fun l hl => isBlankLine_indentLine (commonMargin_le hl)
  constructor
  case unbroken =>
    exact List.forall_mem_map.2 fun l hl => notMem_indentLine (commonMargin_le hl) (hunbroken l hl)
  case first =>
    intro l' hl'
    rw [List.head?_map] at hl'
    obtain ⟨l, hl, rfl⟩ := Option.map_eq_some_iff.1 hl'
    rw [hsame l (List.mem_of_mem_head? hl), hfirst l hl]
  case last =>
    intro l' hl'
    rw [List.getLast?_map] at hl'
    obtain ⟨l, hl, rfl⟩ := Option.map_eq_some_iff.1 hl'
    rw [hsame l (List.mem_of_getLast? hl), hlast l hl]
  case blank =>
    refine List.forall_mem_map.2 fun l hl hblank => ?_
    rw [hsame l hl] at hblank
    exact indentLine_of_blank hblank
  case indented =>
    refine List.forall_mem_map.2 fun l hl hblank => ?_
    rw [hsame l hl] at hblank
    exact ⟨_, indentLine_of_not_blank hblank⟩
  case closed =>
    exact List.forall_mem_map.2 fun l hl => getLast?_indentLine (commonMargin_le hl)
  case flush =>
    intro hne
    obtain ⟨l₀, ls', rfl⟩ := List.exists_cons_of_ne_nil (mt List.map_eq_nil_iff.2 hne)
    -- the line that has the least margin ends up flush
    obtain ⟨⟨l, hl, hblank, hmargin⟩, -⟩ :=
      (commonMargin_eq_iff ⟨l₀, List.mem_cons_self, hfirst l₀ rfl⟩).1 rfl
    obtain ⟨c, rest, hindent, hc⟩ := exists_indentLine_margin hblank
    exact ⟨c, rest, List.mem_map.2 ⟨l, hl, by rw [← hmargin, hindent]⟩, hc⟩

/-- The lines that are set at one level are those from the first to the last that is not blank. -/
theorem innerLines_eq_dropEnds (ls : List (List Char)) : innerLines ls = dropEnds isBlankLine ls :=
  rfl

theorem level_indentLines (h : ∀ l ∈ ls, '\n' ∉ l) : Level (indentLines ls) := by
  obtain ⟨front, back, -, -, heq⟩ := exists_dropEnds isBlankLine ls
  refine level_map_indentLine (fun l hl => h l ?_) (head?_dropEnds _ ls) (getLast?_dropEnds _ ls)
  rw [heq]
  exact List.mem_append_right _ (List.mem_append_left _ hl)

theorem Level.commonMargin_eq (h : Level ls) (hne : ls ≠ []) :
    commonMargin ls = byteLength oneLevel := by
  obtain ⟨c, rest, hmem, hc⟩ := h.flush hne
  have hflush : isBlankLine (oneLevel ++ c :: rest) = false := by
    simp [isBlankLine, hc]
  refine (commonMargin_eq_iff ⟨_, hmem, hflush⟩).2 ⟨⟨_, hmem, hflush, ?_⟩, fun l hl hblank => ?_⟩
  · rw [margin_append blanks_oneLevel, margin, List.takeWhile_cons_of_neg (by simp [hc])]
    rfl
  · obtain ⟨rest, rfl⟩ := h.indented l hl hblank
    rw [margin_append blanks_oneLevel]
    exact Nat.le_add_right ..

/-- Lines at one level are left as they are. -/
theorem Level.indentLines_eq (h : Level ls) : indentLines ls = ls := by
  have hline : ∀ l ∈ ls, indentLine (commonMargin ls) l = id l := by
    intro l hl
    cases hblank : isBlankLine l with
    | true => rw [indentLine_of_blank hblank, h.blank l hl hblank, id]
    | false =>
      -- the margin of a level text is one level, which is cut off and put back
      obtain ⟨rest, rfl⟩ := h.indented l hl hblank
      have hclosed : ∀ c ∈ rest.getLast?, isBlank c = false := fun c hc =>
        h.closed _ hl c (by rw [List.getLast?_append, Option.mem_def.1 hc]; rfl)
      rw [indentLine_of_not_blank hblank, h.commonMargin_eq (List.ne_nil_of_mem hl),
        cut_byteLength blanks_oneLevel, trimEnd_eq_self hclosed, id]
  rw [indentLines, innerLines_eq_dropEnds, dropEnds_eq_self h.first h.last,
    List.map_congr_left hline, List.map_id]

/-! ### Bodies -/

theorem toList_indentBody (text : String) :
    (indentBody text).toList = (indentLines (lines text.toList)).flatMap (· ++ ['\n']) := by
  rw [indentBody, String.toList_join, List.flatMap_map]
  simp

theorem level_indentBody (text : String) : Level (indentLines (lines text.toList)) :=
  level_indentLines fun _ => notMem_of_mem_lines

theorem indentBody_indentBody (text : String) : indentBody (indentBody text) = indentBody text := by
  have hlevel := level_indentBody text
  have hempty : ∀ l ∈ [[]], isBlankLine l = true := List.forall_mem_singleton.2 rfl
  -- the empty line behind the last line break does not count
  have hinner : ∀ ls, indentLines (ls ++ [[]]) = indentLines ls := fun ls => by
    have hdrop := dropEnds_append (List.forall_mem_nil _) hempty ls
    rw [List.nil_append] at hdrop
    rw [indentLines, innerLines_eq_dropEnds, hdrop, ← innerLines_eq_dropEnds, ← indentLines]
  have hlines : indentLines (lines (indentBody text).toList) = indentLines (lines text.toList) := by
    rw [toList_indentBody, lines_flatMap hlevel.unbroken, hinner, hlevel.indentLines_eq]
  rw [← String.toList_inj, toList_indentBody, hlines, toList_indentBody]

/-! ### Bodies moved to the right -/

/-- A line further to the right, unless it is blank. -/
def pushLine (run line : List Char) : List Char :=
  if isBlankLine line then line else run ++ line

/-- A text with the same blanks put in front of each line that is not blank. -/
def pushRight (run : List Char) (text : String) : String :=
  String.ofList (['\n'].intercalate ((lines text.toList).map (pushLine run)))

theorem pushLine_of_blank (h : isBlankLine line = true) : pushLine run line = line := by
  rw [pushLine, if_pos h]

theorem pushLine_of_not_blank (h : isBlankLine line = false) : pushLine run line = run ++ line := by
  rw [pushLine, h, if_neg Bool.false_ne_true]

theorem isBlankLine_pushLine (hrun : Blanks run) (line : List Char) :
    isBlankLine (pushLine run line) = isBlankLine line := by
  cases h : isBlankLine line with
  | true => rw [pushLine_of_blank h, h]
  | false =>
    rw [pushLine_of_not_blank h, isBlankLine_congr (trim_append_left hrun line), h]

theorem indentLine_pushLine (hrun : Blanks run) (line : List Char) :
    indentLine (byteLength run + n) (pushLine run line) = indentLine n line := by
  cases h : isBlankLine line with
  | true => rw [pushLine_of_blank h, indentLine_of_blank h, indentLine_of_blank h]
  | false =>
    have hpush := isBlankLine_pushLine hrun line
    rw [h] at hpush
    rw [indentLine_of_not_blank hpush, indentLine_of_not_blank h, pushLine_of_not_blank h,
      cut_append hrun]

theorem commonMargin_map_pushLine (hrun : Blanks run) (hne : ∃ l ∈ ls, isBlankLine l = false) :
    commonMargin (ls.map (pushLine run)) = byteLength run + commonMargin ls := by
  obtain ⟨⟨l, hl, hblank, hmargin⟩, hleast⟩ := (commonMargin_eq_iff hne).1 rfl
  have hpush : isBlankLine (pushLine run l) = false := by rw [isBlankLine_pushLine hrun, hblank]
  have hmem : pushLine run l ∈ ls.map (pushLine run) := List.mem_map_of_mem hl
  refine (commonMargin_eq_iff ⟨_, hmem, hpush⟩).2 ⟨⟨_, hmem, hpush, ?_⟩, ?_⟩
  · rw [pushLine_of_not_blank hblank, margin_append hrun, hmargin]
  · refine List.forall_mem_map.2 fun l' hl' hblank' => ?_
    rw [isBlankLine_pushLine hrun] at hblank'
    rw [pushLine_of_not_blank hblank', margin_append hrun]
    exact Nat.add_le_add_left (hleast l' hl' hblank') _

theorem indentLines_map_pushLine (hrun : Blanks run) (ls : List (List Char)) :
    indentLines (ls.map (pushLine run)) = indentLines ls := by
  have hsame : isBlankLine ∘ pushLine run = isBlankLine := funext (isBlankLine_pushLine hrun)
  have hinner : innerLines (ls.map (pushLine run)) = (innerLines ls).map (pushLine run) := by
    rw [innerLines_eq_dropEnds, dropEnds_map, hsame, ← innerLines_eq_dropEnds]
  have hfirst : ∀ l ∈ (innerLines ls).head?, isBlankLine l = false := head?_dropEnds _ ls
  rw [indentLines, indentLines, hinner, List.map_map]
  cases hls : innerLines ls with
  | nil => rfl
  | cons l ls' =>
    have hne : ∃ l' ∈ l :: ls', isBlankLine l' = false :=
      ⟨l, List.mem_cons_self, hfirst l (hls ▸ rfl)⟩
    rw [commonMargin_map_pushLine hrun hne]
    exact List.map_congr_left fun l' _ => indentLine_pushLine hrun l'

theorem lines_pushRight (hbreak : '\n' ∉ run) (text : String) :
    lines (pushRight run text).toList = (lines text.toList).map (pushLine run) := by
  have hunbroken : ∀ l ∈ (lines text.toList).map (pushLine run), '\n' ∉ l := by
    refine List.forall_mem_map.2 fun l hl => ?_
    cases h : isBlankLine l with
    | true =>
      rw [pushLine_of_blank h]
      exact notMem_of_mem_lines hl
    | false =>
      rw [pushLine_of_not_blank h, List.mem_append, not_or]
      exact ⟨hbreak, notMem_of_mem_lines hl⟩
  rw [pushRight, String.toList_ofList, lines_eq_splitOn, List.splitOn_intercalate _ hunbroken]
  exact mt List.map_eq_nil_iff.1 (pieces_ne_nil _ _)

theorem indentBody_pushRight (hrun : Blanks run) (hbreak : '\n' ∉ run) (text : String) :
    indentBody (pushRight run text) = indentBody text := by
  rw [← String.toList_inj, toList_indentBody, toList_indentBody, lines_pushRight hbreak,
    indentLines_map_pushLine hrun]

/-- The lines of a re-indented body are those from the first to the last that is not blank, the same
but for the blanks at their ends, and they are at one level. Re-indenting the body again changes
nothing, nor does it matter if the body was moved to the right by a run of blanks. -/
theorem indentBody_level (text : String) :
    (∃ front inner back outer, lines text.toList = front ++ (inner ++ back) ∧
      (∀ l ∈ front, isBlankLine l = true) ∧ (∀ l ∈ back, isBlankLine l = true) ∧
      (∀ l ∈ inner.head?, isBlankLine l = false) ∧ (∀ l ∈ inner.getLast?, isBlankLine l = false) ∧
      (indentBody text).toList = outer.flatMap (· ++ ['\n']) ∧
      List.Forall₂ (fun l l' => trim l' = trim l) inner outer ∧ Level outer) ∧
    indentBody (indentBody text) = indentBody text ∧
    ∀ run, Blanks run → '\n' ∉ run → indentBody (pushRight run text) = indentBody text := by
  refine ⟨?_, indentBody_indentBody text,
    fun run hrun hbreak => indentBody_pushRight hrun hbreak text⟩
  obtain ⟨front, back, hfront, hback, heq⟩ := exists_dropEnds isBlankLine (lines text.toList)
  refine ⟨front, _, back, indentLines (lines text.toList), heq, hfront, hback, head?_dropEnds _ _,
    getLast?_dropEnds _ _, toList_indentBody text, ?_, level_indentBody text⟩
  rw [indentLines, ← innerLines_eq_dropEnds, List.forall₂_map_right_iff]
  exact List.forall₂_same.2 fun l hl => trim_indentLine (commonMargin_le hl)

namespace Sample

/-- A body in which the cut falls inside the wide blank of the second line. -/
def body : String :=
  "\n  if (x)\n\u2003y();\n   \n"

end Sample

theorem indentBody_level_sample :
    pushRight ['\t', ' '] Sample.body = "\n\t   if (x)\n\t \u2003y();\n   \n" ∧
      indentBody (pushRight ['\t', ' '] Sample.body) = "    if (x)\n    y();\n" ∧
      indentBody "    if (x)\n    y();\n" = "    if (x)\n    y();\n" := by
  obtain ⟨-, hagain, hright⟩ := indentBody_level Sample.body
  have hbody : indentBody Sample.body = "    if (x)\n    y();\n" := by decide +kernel
  have hrun := hright ['\t', ' '] (isBlankLine_eq_true.1 rfl) (by decide)
  rw [hbody] at hagain hrun
  exact ⟨by decide +kernel, hrun, hagain⟩

end ClassForge.Text

import ClassForge.Proofs.C.Canonical
import ClassForge.Proofs.Text.Words

/-!
# The grammar of type texts

Which texts name a type, and which type each of them names, said without reading them: a base, stars
with blanks around them, and a length in brackets (`TypeText`). Reading accepts just these texts.

A text is read from its end, so each part is told from what stands in front of it: a base ends in a
character of a name, which is no star and no blank, and no bracket stands between brackets.
-/

namespace ClassForge.C

open Text

/-! ### The grammar -/

/-- The ways to write a built-in type, each as its words. -/
def Primitive.wordings : Primitive → List (List String)
  | unsignedInt => [["unsigned", "int"], ["unsigned"]]
  | bool => [["bool"], ["_Bool"]]
  | p => [[p.spelling]]

/-- The texts of bases: the words of a built-in type, `struct` with one space and a tag, blanks in
front of the tag aside, or a typedef. -/
inductive BaseText (s : Scope) : List Char → CType → Prop
  | primitive {p : Primitive} {ws : List String} {cs : List Char} (hws : ws ∈ p.wordings)
      (hcs : Spaced (ws.map String.toList) cs) : BaseText s cs (.primitive p)
  | struct {gap : List Char} {tag : String} (hgap : Blanks gap) (htag : tag ∈ s.tags) :
      BaseText s ("struct ".toList ++ (gap ++ tag.toList)) (.struct tag)
  | typedef {name : String} (hname : name ∈ s.typedefs) : BaseText s name.toList (.typedef name)

/-- The texts of `n` stars, which have blanks around each. -/
structure StarsText (n : Nat) (cs : List Char) : Prop where
  only : ∀ c ∈ cs, c = '*' ∨ isBlank c = true
  count : cs.count '*' = n

/-- The texts of types without brackets. -/
inductive StarredText (s : Scope) : List Char → CType → Prop
  | intro {base stars : List Char} {b : CType} {n : Nat} (hbase : BaseText s base b)
      (hstars : StarsText n stars) (hn : n ≤ 255) : StarredText s (base ++ stars) (b.starred n)

/-- The texts of lengths: digits with a value of one 64-bit word, zero aside, or an identifier. -/
inductive LengthText : List Char → ArrayLength → Prop
  | count {cs : List Char} (hne : cs ≠ []) (hdigits : ∀ c ∈ cs, c.isDigit = true)
      (hpos : 0 < Nat.ofDigitChars 10 cs 0) (hlt : Nat.ofDigitChars 10 cs 0 < UInt64.size) :
      LengthText cs (.count (Nat.ofDigitChars 10 cs 0))
  | symbol {name : String} (hname : isIdentifier name = true) :
      LengthText name.toList (.symbol name)

/-- The texts of types: one without brackets, with a length in brackets behind it if it is not that
of `void` itself. -/
inductive TypeText (s : Scope) : List Char → CType → Prop
  | starred {cs : List Char} {t : CType} (hcs : StarredText s cs t) : TypeText s cs t
  | array {cs front mid back : List Char} {t : CType} {length : ArrayLength}
      (hcs : StarredText s cs t) (hvoid : t ≠ .void) (hfront : Blanks front)
      (hlength : LengthText mid length) (hback : Blanks back) :
      TypeText s (cs ++ '[' :: (front ++ (mid ++ back) ++ [']'])) (.array t length)

theorem isWord_of_isIdentifier {name : String} (h : isIdentifier name = true) :
    IsWord name.toList := by
  obtain ⟨c, cs, hcons, -⟩ := exists_cons_of_isIdentifier h
  exact ⟨by simp [hcons], fun c hc => isBlank_of_isNameChar (isNameChar_of_mem h hc)⟩

/-! ### Built-in types -/

namespace Primitive

theorem ofSpelling?_eq_some {text : String} {p : Primitive} : ofSpelling? text = some p ↔
    ∃ ws ∈ p.wordings, text = " ".intercalate ws := by
  constructor
  · intro h
    unfold ofSpelling? at h
    -- the two aliases are tried first, then the spellings
    split at h
    next htext =>
      cases h
      exact ⟨["unsigned"], by decide, htext⟩
    split at h
    next htext =>
      cases h
      exact ⟨["_Bool"], by decide, htext⟩
    next =>
      obtain rfl : p.spelling = text := by simpa using List.find?_some h
      cases p <;> exact ⟨_, List.mem_cons_self, rfl⟩
  · rintro ⟨ws, hws, rfl⟩
    revert ws
    -- each of the wordings is short, so it can be tried out
    cases p <;> decide

theorem isNameChar_of_mem_wordings {p : Primitive} {ws : List String} (hws : ws ∈ p.wordings) :
    ws ≠ [] ∧ ∀ w ∈ ws.map String.toList, w ≠ [] ∧ ∀ c ∈ w, isNameChar c = true := by
  have hall : (p.wordings.all fun ws => !ws.isEmpty &&
      (ws.map String.toList).all fun w => !w.isEmpty && w.all isNameChar) = true := by
    cases p <;> rfl
  simpa using List.all_eq_true.1 hall ws hws

theorem struct_notMem_wordings {p : Primitive} {ws : List String} (hws : ws ∈ p.wordings) :
    "struct".toList ∉ ws.map String.toList := by
  revert ws
  cases p <;> decide

theorem isWord_of_mem_wordings {p : Primitive} {ws : List String} (hws : ws ∈ p.wordings) :
    ∀ w ∈ ws.map String.toList, IsWord w := fun w hw =>
  have h := (isNameChar_of_mem_wordings hws).2 w hw
  ⟨h.1, fun c hc => isBlank_of_isNameChar (h.2 c hc)⟩

/-- A text with its blanks as they may be names a built-in type just when it has the words of one of
the ways to write the type. -/
theorem ofText?_eq_some {cs : List Char} (hcs : Trimmed cs) (hne : cs ≠ []) {p : Primitive} :
    ofText? (String.ofList cs) = some p ↔
      ∃ ws ∈ p.wordings, Spaced (ws.map String.toList) cs := by
  rw [ofText?, ofSpelling?_eq_some, String.toList_ofList]
  refine exists_congr fun ws => and_congr_right fun hws => ?_
  have hspaced := Spaced.intercalate (by simpa using (isNameChar_of_mem_wordings hws).1)
    (isWord_of_mem_wordings hws)
  have hsqueeze : String.ofList (squeeze cs) = " ".intercalate ws ↔
      squeeze cs = [' '].intercalate (ws.map String.toList) := by
    rw [← String.toList_inj, String.toList_ofList, String.toList_intercalate]
    exact Iff.rfl
  rw [hsqueeze, spaced_iff]
  constructor
  · intro h
    -- a squeezed text has the words of the text, and those of a wording are known
    have hwords := congrArg words h
    rw [words_squeeze hcs hne, hspaced.words_eq] at hwords
    exact ⟨hne, hcs, hwords⟩
  · rintro ⟨-, -, hwords⟩
    rw [squeeze, hwords]

end Primitive

/-! ### The parts of a text -/

variable {s : Scope}

theorem BaseText.base (hs : s.Clear) {cs : List Char} {b : CType} (h : BaseText s cs b) :
    b.Base ∧ b.InScope s := by
  cases h with
  | primitive => exact ⟨.primitive _, trivial⟩
  | struct _ htag => exact ⟨.struct (hs.tag _ htag), htag⟩
  | typedef hname => exact ⟨.typedef (hs.typedef _ hname), hname⟩

/-- A base ends in a character of a name. -/
theorem BaseText.exists_reverse (hs : s.Clear) {cs : List Char} {b : CType}
    (h : BaseText s cs b) : ∃ c ds, cs.reverse = c :: ds ∧ isNameChar c = true := by
  cases h with
  | @primitive p ws cs hws hcs =>
    obtain ⟨c, ds, hrev⟩ := List.exists_cons_of_ne_nil (List.reverse_ne_nil_iff.2 hcs.ne_nil)
    refine ⟨c, ds, hrev, ?_⟩
    have hlast : c ∈ cs.getLast? := by simp [← List.head?_reverse, hrev]
    -- the last character is not blank, so it is one of a word
    rcases hcs.isBlank_or_mem c (List.mem_of_getLast? hlast) with hc | ⟨w, hw, hc⟩
    · rw [hcs.trimmed.last c hlast] at hc
      cases hc
    · exact ((Primitive.isNameChar_of_mem_wordings hws).2 w hw).2 c hc
  | @struct gap tag _ htag =>
    obtain ⟨c, ds, hrev, hc⟩ := exists_reverse_of_isIdentifier (hs.tag _ htag)
    exact ⟨c, ds ++ ("struct ".toList ++ gap).reverse, by simp [hrev], hc⟩
  | typedef hname => exact exists_reverse_of_isIdentifier (hs.typedef _ hname)

theorem StarredText.isArray (hs : s.Clear) {cs : List Char} {t : CType}
    (h : StarredText s cs t) : t.isArray = false := by
  obtain @⟨_, _, b, n, hbase, -, -⟩ := h
  exact (hbase.base hs).1.isArray_starred n

/-- No text of a type without brackets ends in one. -/
theorem StarredText.last_ne (hs : s.Clear) {cs : List Char} {t : CType}
    (h : StarredText s cs t) : ∀ c ∈ cs.reverse.head?, c ≠ ']' := by
  obtain @⟨base, stars, b, n, hbase, hstars, -⟩ := h
  rintro c hc rfl
  rw [List.reverse_append] at hc
  -- the last character is a star or a blank, or it is that of the base
  cases hrev : stars.reverse with
  | nil =>
    obtain ⟨d, ds, hbaseRev, hd⟩ := hbase.exists_reverse hs
    rw [hrev, hbaseRev] at hc
    cases hc
    cases hd
  | cons d ds =>
    rw [hrev] at hc
    cases hc
    have hmem : ']' ∈ stars := List.mem_reverse.1 (hrev ▸ List.mem_cons_self)
    rcases hstars.only _ hmem with h | h <;> cases h

theorem LengthText.isNameChar {cs : List Char} {length : ArrayLength} (h : LengthText cs length) :
    cs ≠ [] ∧ ∀ c ∈ cs, isNameChar c = true := by
  cases h with
  | count hne hdigits => exact ⟨hne, fun c hc => isNameChar_of_isDigit (hdigits c hc)⟩
  | symbol hname =>
    exact ⟨(isWord_of_isIdentifier hname).1, fun c => isNameChar_of_mem hname⟩

theorem LengthText.valid {cs : List Char} {length : ArrayLength} (h : LengthText cs length) :
    length ≠ .count 0 ∧ ∀ name, length = .symbol name → isIdentifier name = true := by
  cases h with
  | count _ _ hpos =>
    exact ⟨fun hzero => absurd (ArrayLength.count.inj hzero) hpos.ne', nofun⟩
  | symbol hname => exact ⟨nofun, fun _ h => by cases h; exact hname⟩

namespace Scope

theorem words_structWord_append (cs : List Char) :
    words (structWord ++ cs) = "struct".toList :: words cs :=
  words_append_blank rfl "struct".toList cs

theorem parseBase_of_baseText (hs : s.Clear) {cs : List Char} {b : CType} (h : BaseText s cs b) :
    s.parseBase cs = .ok b := by
  cases h with
  | @primitive p ws cs hws hcs =>
    have hempty : cs.isEmpty = false := by simp [hcs.ne_nil]
    -- a text that opens with the keyword has it among its words, and no built-in type has
    have hprefix : structWord.isPrefixOf cs = false := by
      rw [← Bool.not_eq_true, List.isPrefixOf_iff_prefix]
      rintro ⟨rest, rfl⟩
      refine Primitive.struct_notMem_wordings hws ?_
      rw [← hcs.words_eq, words_structWord_append]
      exact List.mem_cons_self
    have htext := (Primitive.ofText?_eq_some hcs.trimmed hcs.ne_nil).2 ⟨ws, hws, hcs⟩
    rw [parseBase, hempty, if_neg Bool.false_ne_true, hprefix, if_neg Bool.false_ne_true, htext]
  | @struct gap tag hgap htag =>
    have hword := isWord_of_isIdentifier (hs.tag _ htag)
    have htrim := trim_of_blanks hgap blanks_nil hword.trimmed
    rw [List.append_nil] at htrim
    exact parseBase_struct htag htrim
  | @typedef name hname =>
    have hbase : (CType.typedef name).Base := .typedef (hs.typedef _ hname)
    have hread := parseBase_spelling hs hbase hname
    exact hread

/-- Without blanks at the end, only those in front of the tag are trimmed. -/
theorem baseText_struct {rest : List Char} (hcs : Trimmed (structWord ++ rest))
    (htag : String.ofList (trim rest) ∈ s.tags) :
    BaseText s (structWord ++ rest) (.struct (String.ofList (trim rest))) := by
  obtain ⟨front, back, hfront, hback, hrest⟩ := exists_trim rest
  rw [hrest, ← List.append_assoc, ← List.append_assoc] at hcs
  obtain rfl := hcs.eq_nil_of_blanks hback
  have htext : (String.ofList (trim rest)).toList = trim rest := String.toList_ofList
  have hbase : BaseText s (structWord ++ (front ++ (String.ofList (trim rest)).toList)) _ :=
    .struct hfront htag
  rw [List.append_nil] at hrest
  rwa [htext, ← hrest] at hbase

theorem baseText_of_parseBase {cs : List Char} (hcs : Trimmed cs) {b : CType}
    (h : s.parseBase cs = .ok b) : BaseText s cs b := by
  -- one case for each branch of the parser: a tag in scope, a built-in type, a typedef in scope
  unfold parseBase at h
  split at h
  · cases h
  next hne =>
    have hne : cs ≠ [] := by simpa using hne
    split at h
    next hprefix =>
      dsimp only at h
      split at h
      next htag =>
        cases h
        obtain ⟨rest, rfl⟩ := List.isPrefixOf_iff_prefix.1 hprefix
        rw [List.drop_left] at htag ⊢
        exact baseText_struct hcs (List.contains_iff_mem.1 htag)
      · cases h
    next =>
      split at h
      next p htext =>
        cases h
        obtain ⟨ws, hws, hspaced⟩ := (Primitive.ofText?_eq_some hcs hne).1 htext
        exact .primitive hws hspaced
      next =>
        dsimp only at h
        split at h
        next hname =>
          cases h
          have hname := List.contains_iff_mem.1 hname
          simpa using BaseText.typedef hname
        next => cases h

/-! ### Stars -/

/-- Stars, and the blanks around them. -/
def isStarBlank (c : Char) : Bool :=
  c == '*' || isBlank c

theorem cutStars_eq (cs : List Char) : cutStars cs =
    ((cs.takeWhile isStarBlank).count '*', cs.dropWhile isStarBlank) := by
  induction cs with
  | nil => rfl
  | cons c cs ih =>
    rw [cutStars, ih]
    by_cases hstar : c = '*'
    · simp [hstar, isStarBlank]
    · cases hc : isBlank c with
      | true => simp [isStarBlank, hc, hstar]
      | false => simp [isStarBlank, hc, hstar]

theorem parseStarred_of_starredText (hs : s.Clear) {cs : List Char} {t : CType}
    (h : StarredText s cs t) (whole : List Char) : s.parseStarred whole cs = .ok t := by
  obtain @⟨base, stars, b, n, hbase, hstars, hn⟩ := h
  obtain ⟨c, ds, hrev, hc⟩ := hbase.exists_reverse hs
  -- from the end all stars and blanks are cut off, and the last character of the base stops that
  have hcut : cutStars (base ++ stars).reverse = (n, base.reverse) := by
    have hall : ∀ d ∈ stars.reverse, isStarBlank d = true := by
      intro d hd
      simpa [isStarBlank] using hstars.only d (List.mem_reverse.1 hd)
    have hstop : isStarBlank c = false := by
      rw [isStarBlank, isBlank_of_isNameChar hc, Bool.or_false, beq_eq_false_iff_ne]
      rintro rfl
      cases hc
    rw [cutStars_eq, List.reverse_append, List.takeWhile_append_of_pos hall,
      List.dropWhile_append_of_pos hall, hrev]
    simp [hstop, hstars.count]
  simp only [parseStarred, hcut, List.reverse_reverse, parseBase_of_baseText hs hbase,
    if_neg (Nat.not_lt.2 hn : ¬CType.maxDepth < n)]
  exact (hbase.base hs).1.withStars hn

/-- What is cut off at the end are stars, and they are cut off up to a character of the base. -/
theorem exists_cutStars (cs : List Char) : ∃ n rest stars, cutStars cs.reverse = (n, rest) ∧
    StarsText n stars ∧ cs = rest.reverse ++ stars ∧ ∀ c ∈ rest.head?, isBlank c = false := by
  refine ⟨_, _, (cs.reverse.takeWhile isStarBlank).reverse, cutStars_eq cs.reverse,
    ⟨fun c hc => ?_, List.count_reverse⟩, ?_, fun c hc => ?_⟩
  · have hcut : isStarBlank c = true := List.mem_takeWhile_imp (List.mem_reverse.1 hc)
    simpa [isStarBlank] using hcut
  · rw [← List.reverse_append, List.takeWhile_append_dropWhile, List.reverse_reverse]
  · have hstop := List.head?_dropWhile_not isStarBlank cs.reverse
    rw [Option.mem_def.1 hc] at hstop
    exact (Bool.or_eq_false_iff.1 hstop).2

theorem starredText_of_parseStarred (hs : s.Clear) {whole cs : List Char}
    (hfirst : ∀ c ∈ cs.head?, isBlank c = false) {t : CType}
    (h : s.parseStarred whole cs = .ok t) : StarredText s cs t := by
  obtain ⟨n, rest, stars, hcut, hstars, rfl, hlast⟩ := exists_cutStars cs
  simp only [parseStarred, hcut] at h
  split at h
  · exact absurd h throw_bind_ne_ok
  next hn =>
    obtain ⟨b, hread, h⟩ := bind_eq_ok.1 h
    -- the text has no blank in front, and all blanks behind the base were cut off with the stars
    have htrimmed : Trimmed rest.reverse := by
      refine ⟨fun c hc => hfirst c ?_, by simpa using hlast⟩
      rw [List.head?_append, Option.mem_def.1 hc]
      rfl
    have hbase := baseText_of_parseBase htrimmed hread
    have hwith := (hbase.base hs).1.withStars (Nat.not_lt.1 hn)
    cases hwith.symm.trans h
    exact .intro hbase hstars (Nat.not_lt.1 hn)

/-! ### Lengths -/

theorem digitsValue_eq (digits : List Char) : digitsValue digits = Nat.ofDigitChars 10 digits 0 :=
  Nat.ofDigitChars_eq_foldl.symm

theorem parseLength_of_lengthText {cs : List Char} {length : ArrayLength}
    (h : LengthText cs length) : parseLength cs = .ok length := by
  cases h with
  | count hne hdigits _ hlt =>
    have hdigits : (!cs.isEmpty && cs.all Char.isDigit) = true := by simpa [hne] using hdigits
    rw [parseLength, if_pos hdigits, digitsValue_eq, if_pos (show _ < lengthLimit from hlt)]
  | @symbol name hname =>
    have hfits : (ArrayLength.symbol name).Fits := trivial
    have hread := parseLength_text hfits fun _ h => by cases h; exact hname
    exact hread

theorem lengthText_of_parseLength {cs : List Char} {length : ArrayLength}
    (h : parseLength cs = .ok length) (hpos : length ≠ .count 0) : LengthText cs length := by
  unfold parseLength at h
  split at h
  next hdigits =>
    have hdigits : cs ≠ [] ∧ ∀ c ∈ cs, c.isDigit = true := by simpa using hdigits
    rw [digitsValue_eq] at h
    split at h
    next hlt =>
      cases h
      refine .count hdigits.1 hdigits.2 (Nat.pos_of_ne_zero fun hzero => hpos ?_) hlt
      rw [hzero]
    next => cases h
  next =>
    obtain ⟨hname, h⟩ := checkName_bind_eq_ok.1 h
    cases h
    simpa using LengthText.symbol hname

/-! ### A whole text -/

theorem cutBracket?_eq_some {rest front between : List Char}
    (h : cutBracket? rest = some (front, between)) :
    rest.reverse = front.reverse ++ '[' :: between := by
  have hrest := List.takeWhile_append_dropWhile (p := (· != '[')) (l := rest)
  have hopen := List.head?_dropWhile_not (· != '[') rest
  unfold cutBracket? at h
  split at h
  · cases h
  next c ds hdrop =>
    cases h
    rw [hdrop] at hopen hrest
    obtain rfl : c = '[' := by simpa using hopen
    simpa using (congrArg List.reverse hrest).symm

theorem parseTrimmed_of_typeText (hs : s.Clear) {cs : List Char} {t : CType}
    (h : TypeText s cs t) : s.parseTrimmed cs = .ok t := by
  cases h with
  | starred hcs =>
    unfold parseTrimmed
    split
    -- such a text does not end in a bracket
    next rest hrev => exact absurd rfl (hcs.last_ne hs ']' (by rw [hrev]; rfl))
    next => exact parseStarred_of_starredText hs hcs cs
  | @array cs front mid back t length hcs hvoid hfront hlength hback =>
    obtain ⟨hne, hchars⟩ := hlength.isNameChar
    have hword : IsWord mid := ⟨hne, fun c hc => isBlank_of_isNameChar (hchars c hc)⟩
    have htrim := trim_of_blanks hfront hback hword.trimmed
    -- the bracket that is found from the end is the one that was written
    have hbracket : '[' ∉ front ++ (mid ++ back) := by
      simp only [List.mem_append, not_or]
      refine ⟨fun h => ?_, fun h => ?_, fun h => ?_⟩
      · cases hfront _ h
      · cases hchars _ h
      · cases hback _ h
    have hrev : (cs ++ '[' :: (front ++ (mid ++ back) ++ [']'])).reverse =
        ']' :: ((front ++ (mid ++ back)).reverse ++ '[' :: cs.reverse) := by
      simp
    have harray : CType.array? t length = .ok (.array t length) :=
      CType.array?_eq_ok.2 ⟨rfl, hcs.isArray hs, hvoid, hlength.valid⟩
    rw [parseTrimmed, hrev]
    simp only [cutBracket?_reverse hbracket, htrim, parseLength_of_lengthText hlength,
      List.reverse_reverse, parseStarred_of_starredText hs hcs]
    exact harray

theorem typeText_of_parseTrimmed (hs : s.Clear) {cs : List Char}
    (hfirst : ∀ c ∈ cs.head?, isBlank c = false) {t : CType} (h : s.parseTrimmed cs = .ok t) :
    TypeText s cs t := by
  unfold parseTrimmed at h
  split at h
  next rest hrev =>
    split at h
    · cases h
    next front between hcut =>
      obtain ⟨length, hlength, h⟩ := bind_eq_ok.1 h
      obtain ⟨element, helement, h⟩ := bind_eq_ok.1 h
      obtain ⟨rfl, -, hvoid, hpos, -⟩ := CType.array?_eq_ok.1 h
      -- the text is what was cut at the brackets, put together again
      obtain ⟨f, b, hf, hb, hbetween⟩ := exists_trim between
      have htext : cs = front.reverse ++ '[' :: (between ++ [']']) := by
        rw [← List.reverse_reverse cs, hrev, List.reverse_cons, cutBracket?_eq_some hcut]
        simp
      subst htext
      have hfront : ∀ c ∈ front.reverse.head?, isBlank c = false := fun c hc => by
        refine hfirst c ?_
        rw [List.head?_append, Option.mem_def.1 hc]
        rfl
      rw [hbetween]
      exact .array (starredText_of_parseStarred hs hfront helement) hvoid hf
        (lengthText_of_parseLength hlength hpos) hb
  next => exact .starred (starredText_of_parseStarred hs hfirst h)

/-- A text names a type just when the grammar gives the type for the text without the blanks at its
ends. -/
theorem parse_eq_ok_iff (hs : s.Made) {text : String} {t : CType} :
    s.parse text = .ok t ↔ TypeText s (trim text.toList) t :=
  ⟨typeText_of_parseTrimmed hs.clear (trimmed_trim _).first, parseTrimmed_of_typeText hs.clear⟩

open Sample

theorem parse_eq_ok_iff_sample :
    names.Made ∧
      TypeText names "struct \t Cell * *\n[ 007 ]".toList
        (.array (.pointer (.struct "Cell") 2) (.count 7)) ∧
      names.parse " unsigned \n int * " = .ok (.pointer (.primitive .unsignedInt) 1) ∧
      ∀ t, ¬ TypeText names "void [3]".toList t := by
  have hgrid : names.parse " struct \t Cell * *\n[ 007 ]" =
      .ok (.array (.pointer (.struct "Cell") 2) (.count 7)) := rfl
  have hwords : Spaced (["unsigned", "int"].map String.toList) "unsigned \n int".toList :=
    spaced_iff.2 ⟨by decide, ⟨fun c hc => by cases hc; rfl, fun c hc => by cases hc; rfl⟩, rfl⟩
  have hstar : StarsText 1 " *".toList :=
    ⟨List.forall_mem_cons.2 ⟨.inr rfl, List.forall_mem_singleton.2 (.inl rfl)⟩, rfl⟩
  have hpointer : TypeText names "unsigned \n int *".toList
      (.pointer (.primitive .unsignedInt) 1) :=
    .starred (.intro (.primitive (by decide) hwords) hstar (by decide))
  have hvoid : names.parse "void [3]" = .error .arrayOfVoid := rfl
  refine ⟨made_names, (parse_eq_ok_iff made_names).1 hgrid,
    (parse_eq_ok_iff made_names).2 hpointer, fun t h => ?_⟩
  cases hvoid.symm.trans ((parse_eq_ok_iff made_names).2 h)

end Scope

end ClassForge.C

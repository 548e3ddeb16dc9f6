import ClassForge.C.Scope
import ClassForge.Proofs.C.Identifier

/-!
# Type texts

Every type that the checked constructors make, from names that are in scope, is read back from its
canonical text, and reading a text makes no other types. So different types have different texts.

A type that was made is a base, a base with stars, or an array of one of these (`CType.Normal`),
and its text is cut from the end as it was put together: the bracket, the stars, the base.
-/

namespace ClassForge.C

open Text

/-! ### Types that were made -/

/-- Array lengths are 64-bit words. -/
def ArrayLength.Fits : ArrayLength → Prop
  | count n => n < Scope.lengthLimit
  | symbol _ => True

namespace CType

/-- The types that the checked constructors make. -/
inductive Made : CType → Prop where
  | primitive (p : Primitive) : Made (.primitive p)
  | pointer {target t : CType} {depth : Nat} (htarget : Made target)
      (h : pointer? target depth = .ok t) : Made t
  | array {element t : CType} {length : ArrayLength} (helement : Made element)
      (hlength : length.Fits) (h : array? element length = .ok t) : Made t
  | struct {tag : String} {t : CType} (h : struct? tag = .ok t) : Made t
  | typedef {name : String} {t : CType} (h : typedef? name = .ok t) : Made t

/-- Every struct tag and every typedef in a type is in scope. -/
def InScope (s : Scope) : CType → Prop
  | primitive _ => True
  | pointer target _ => target.InScope s
  | array element _ => element.InScope s
  | struct tag => tag ∈ s.tags
  | typedef name => name ∈ s.typedefs

/-- A type without stars and brackets. -/
inductive Base : CType → Prop where
  | primitive (p : Primitive) : Base (.primitive p)
  | struct {tag : String} (h : isIdentifier tag = true) : Base (.struct tag)
  | typedef {name : String} (h : isIdentifier name = true) : Base (.typedef name)

/-- `b` behind `n` stars, which may be none. -/
def starred (b : CType) (n : Nat) : CType :=
  if n = 0 then b else .pointer b n

/-- A type as the grammar has it: a base, then stars, then at most one bracket. -/
inductive Normal : CType → Prop where
  | starred {b : CType} {n : Nat} (hb : b.Base) (hn : n ≤ maxDepth) : Normal (b.starred n)
  | array {b : CType} {n : Nat} {length : ArrayLength} (hb : b.Base) (hn : n ≤ maxDepth)
      (hlength : length.Fits)
      (h : array? (b.starred n) length = .ok (.array (b.starred n) length)) :
      Normal (.array (b.starred n) length)

@[simp] theorem starred_zero (b : CType) : b.starred 0 = b :=
  rfl

theorem inScope_starred {s : Scope} {b : CType} {n : Nat} :
    (b.starred n).InScope s ↔ b.InScope s := by
  unfold starred
  split <;> rfl

theorem Base.normal {b : CType} (hb : b.Base) : b.Normal :=
  .starred (n := 0) hb (Nat.zero_le _)

/-- The levels of nested pointers add up. -/
theorem pointer?_starred {b : CType} (hb : b.Base) (n : Nat) {depth : Nat} (h : depth ≠ 0) :
    pointer? (b.starred n) depth = .ok (b.starred (min maxDepth (n + depth))) := by
  have hmin : min maxDepth (n + depth) ≠ 0 := by
    unfold maxDepth
    omega
  rw [starred.eq_def b (min _ _), if_neg hmin]
  -- without stars the base decides, and no base is an array or has stars of its own
  cases n with
  | zero => cases hb <;> simp [pointer?, h]
  | succ n => simp [pointer?, h, starred]

/-- A base gets the stars that are asked for, if they are not too many. -/
theorem Base.withStars {b : CType} (hb : b.Base) {n : Nat} (hn : n ≤ maxDepth) :
    (if n = 0 then .ok b else pointer? b n) = .ok (b.starred n) := by
  split
  next h => rw [h, starred_zero]
  next h => simpa [Nat.min_eq_right hn] using pointer?_starred hb 0 h

theorem Base.isArray_starred {b : CType} (hb : b.Base) (n : Nat) :
    (b.starred n).isArray = false := by
  unfold starred
  split
  · cases hb <;> rfl
  · rfl

/-- An array is made as it was asked for, or not at all. -/
theorem array?_eq_ok {element t : CType} {length : ArrayLength} :
    array? element length = .ok t ↔
      t = .array element length ∧ element.isArray = false ∧ element ≠ .void ∧ length ≠ .count 0 ∧
        ∀ name, length = .symbol name → isIdentifier name = true := by
  rw [eq_comm (a := t), array?.eq_def, isVoid]
  -- the three checks in the order in which they are made: `void`, arrays, then the length
  by_cases hvoid : element = void
  · simp [hvoid]
  cases element.isArray with
  | true => simp [hvoid]
  | false =>
    simp only [beq_iff_eq, hvoid, if_false, Bool.false_eq_true, ne_eq, not_false_eq_true, true_and]
    cases length with
    | count n => by_cases hn : n = 0 <;> simp [hn]
    | symbol name =>
      rw [checkName_bind_eq_ok]
      simp [pure_eq_ok, and_comm]

theorem inScope_of_pointer? {s : Scope} {target t : CType} {depth : Nat}
    (h : pointer? target depth = .ok t) (htarget : target.InScope s) : t.InScope s := by
  unfold pointer? at h
  split at h
  · cases h
  split at h <;> cases h <;> exact htarget

theorem Made.normal {t : CType} (ht : t.Made) : t.Normal := by
  induction ht with
  | primitive p => exact (Base.primitive p).normal
  | @pointer target t depth _ h ih =>
    -- depth zero is refused, so a star is added or one above the limit is left out
    have hdepth : depth ≠ 0 := by
      rintro rfl
      cases h
    cases ih with
    | starred hb _ =>
      rw [pointer?_starred hb _ hdepth] at h
      cases h
      exact .starred hb (Nat.min_le_left ..)
    | array => simp [pointer?, hdepth] at h
  | array _ hlength h ih =>
    obtain ⟨rfl, helement, -⟩ := array?_eq_ok.1 h
    cases ih with
    | starred hb hn => exact .array hb hn hlength h
    -- no array has an array for its element
    | array => cases helement
  | struct h =>
    obtain ⟨htag, h⟩ := checkName_bind_eq_ok.1 h
    cases h
    exact (Base.struct htag).normal
  | typedef h =>
    obtain ⟨hname, h⟩ := checkName_bind_eq_ok.1 h
    cases h
    exact (Base.typedef hname).normal

/-! ### What the text of a type begins and ends with -/

theorem toList_stars (n : Nat) : (stars n).toList = List.replicate n '*' :=
  String.toList_ofList

theorem toList_spelling_struct (tag : String) :
    (struct tag).spelling.toList = "struct ".toList ++ tag.toList :=
  String.toList_append

theorem spelling_starred (b : CType) (n : Nat) :
    (b.starred n).spelling = b.spelling ++ stars n := by
  unfold starred
  split
  next h => simp [h, stars]
  next => rfl

theorem Base.suffix_starred {b : CType} (hb : b.Base) (n : Nat) : (b.starred n).suffix = "" := by
  unfold starred
  split
  · cases hb <;> rfl
  · rfl

theorem Base.exists_cons {b : CType} (hb : b.Base) :
    ∃ c cs, b.spelling.toList = c :: cs ∧ isNameChar c = true := by
  cases hb with
  | primitive p => cases p <;> exact ⟨_, _, rfl, rfl⟩
  | struct => exact ⟨'s', _, toList_spelling_struct _, rfl⟩
  | typedef h =>
    obtain ⟨c, cs, hcons, hc, -⟩ := exists_cons_of_isIdentifier h
    exact ⟨c, cs, hcons, isNameChar_of_isNameStart hc⟩

theorem Base.exists_reverse {b : CType} (hb : b.Base) :
    ∃ c cs, b.spelling.toList.reverse = c :: cs ∧ isNameChar c = true := by
  cases hb with
  | primitive p => cases p <;> exact ⟨_, _, rfl, rfl⟩
  | @struct tag h =>
    obtain ⟨c, cs, hrev, hc⟩ := exists_reverse_of_isIdentifier h
    refine ⟨c, cs ++ "struct ".toList.reverse, ?_, hc⟩
    rw [toList_spelling_struct, List.reverse_append, hrev, List.cons_append]
  | typedef h => exact exists_reverse_of_isIdentifier h

theorem reverse_starred (b : CType) (n : Nat) :
    (b.starred n).spelling.toList.reverse = List.replicate n '*' ++ b.spelling.toList.reverse := by
  rw [spelling_starred, String.toList_append, toList_stars, List.reverse_append,
    List.reverse_replicate]

theorem Base.head_starred {b : CType} (hb : b.Base) (n : Nat) (text : List Char) :
    ∀ c ∈ ((b.starred n).spelling.toList ++ text).head?, isBlank c = false := by
  obtain ⟨c, cs, hcons, hc⟩ := hb.exists_cons
  intro d hd
  rw [spelling_starred, String.toList_append, hcons] at hd
  cases hd
  exact isBlank_of_isNameChar hc

theorem Base.last_starred {b : CType} (hb : b.Base) (n : Nat) :
    ∀ c ∈ (b.starred n).spelling.toList.reverse.head?, c = '*' ∨ isNameChar c = true := by
  intro c hc
  rw [reverse_starred] at hc
  cases n with
  | zero =>
    obtain ⟨d, ds, hrev, hd⟩ := hb.exists_reverse
    rw [List.replicate_zero, List.nil_append, hrev] at hc
    cases hc
    exact .inr hd
  | succ n =>
    cases hc
    exact .inl rfl

end CType

namespace Scope

/-- The scopes that come of registering names one by one. -/
inductive Made : Scope → Prop where
  | empty : Made {}
  | addTag {s s' : Scope} {tag : String} (hs : Made s) (h : s.addTag tag = .ok s') : Made s'
  | addTypedef {s s' : Scope} {name : String} (hs : Made s) (h : s.addTypedef name = .ok s') :
      Made s'

/-- What holds of the names in a scope: none can be read as anything else. -/
structure Clear (s : Scope) : Prop where
  tag : ∀ tag ∈ s.tags, isIdentifier tag = true
  typedef : ∀ name ∈ s.typedefs, isIdentifier name = true
  notPrimitive : ∀ name ∈ s.typedefs, Primitive.ofText? name = none

theorem Made.clear {s : Scope} (hs : s.Made) : s.Clear := by
  induction hs with
  | empty => constructor <;> simp
  | addTag _ h ih =>
    obtain ⟨htag, h⟩ := checkName_bind_eq_ok.1 h
    cases h
    refine ⟨fun tag hmem => ?_, ih.typedef, ih.notPrimitive⟩
    -- only the name that was added needs its check
    rcases List.mem_insert_iff.1 hmem with rfl | hmem
    · exact htag
    · exact ih.tag tag hmem
  | addTypedef _ h ih =>
    obtain ⟨hname, h⟩ := checkName_bind_eq_ok.1 h
    split at h
    · exact absurd h throw_bind_ne_ok
    next hprimitive =>
      cases h
      refine ⟨ih.tag, fun name hmem => ?_, fun name hmem => ?_⟩ <;>
        rcases List.mem_insert_iff.1 hmem with rfl | hmem
      · exact hname
      · exact ih.typedef name hmem
      · simpa using hprimitive
      · exact ih.notPrimitive name hmem

/-! ### Reading the parts of a text -/

variable {s : Scope} {b : CType}

theorem parseBase_struct {tag : String} (htag : tag ∈ s.tags) {text : List Char}
    (htrim : trim text = tag.toList) : s.parseBase (structWord ++ text) = .ok (.struct tag) := by
  have hempty : (structWord ++ text).isEmpty = false := rfl
  have hprefix : structWord.isPrefixOf (structWord ++ text) = true :=
    List.isPrefixOf_iff_prefix.2 (List.prefix_append ..)
  have hmem : s.hasTag tag = true := List.contains_iff_mem.2 htag
  rw [parseBase, hempty, if_neg Bool.false_ne_true, if_pos hprefix, List.drop_left, htrim,
    String.ofList_toList, if_pos hmem]

theorem parseBase_spelling (hs : s.Clear) (hb : b.Base) (hscope : b.InScope s) :
    s.parseBase b.spelling.toList = .ok b := by
  cases hb with
  | primitive p => cases p <;> rfl
  | @struct tag htag =>
    have htrim : trim tag.toList = tag.toList :=
      trim_eq_of_isNameChar fun c => isNameChar_of_mem htag
    rw [CType.toList_spelling_struct]
    exact parseBase_struct hscope htrim
  | @typedef name hname =>
    -- a typedef is the last to be tried: its name has no space and is no primitive type
    have hne : name.toList.isEmpty = false := by
      obtain ⟨c, cs, hcons, -⟩ := exists_cons_of_isIdentifier hname
      rw [hcons]
      rfl
    have hprefix : structWord.isPrefixOf name.toList = false := by
      rw [← Bool.not_eq_true, List.isPrefixOf_iff_prefix]
      exact fun h => notMem_of_isIdentifier (c := ' ') hname (by decide)
        (h.subset (by decide))
    have hmem : s.hasTypedef name = true := List.contains_iff_mem.2 hscope
    rw [parseBase, CType.spelling, hne, hprefix, String.ofList_toList, hs.notPrimitive name hscope]
    exact if_pos hmem

theorem cutStars_replicate (n : Nat) {c : Char} (cs : List Char) (hc : isNameChar c = true) :
    cutStars (List.replicate n '*' ++ c :: cs) = (n, c :: cs) := by
  have hstar : c ≠ '*' := by
    rintro rfl
    cases hc
  induction n with
  | zero => simp [cutStars, hstar, isBlank_of_isNameChar hc]
  | succ n ih => simp [List.replicate_succ, cutStars, ih]

theorem parseStarred_spelling (hs : s.Clear) (hb : b.Base) (hscope : b.InScope s) {n : Nat}
    (hn : n ≤ CType.maxDepth) (whole : List Char) :
    s.parseStarred whole (b.starred n).spelling.toList = .ok (b.starred n) := by
  obtain ⟨c, cs, hrev, hc⟩ := hb.exists_reverse
  have hcut : cutStars (b.starred n).spelling.toList.reverse = (n, b.spelling.toList.reverse) := by
    rw [CType.reverse_starred, hrev, cutStars_replicate n cs hc]
  simp only [parseStarred, hcut, List.reverse_reverse, parseBase_spelling hs hb hscope,
    if_neg (Nat.not_lt.2 hn)]
  exact hb.withStars hn

theorem parseLength_text {length : ArrayLength} (hfits : length.Fits)
    (hname : ∀ name, length = .symbol name → isIdentifier name = true) :
    parseLength length.text.toList = .ok length := by
  cases length with
  -- digits are read back as the number that they are the decimal text of
  | count n =>
    have htext : (ArrayLength.count n).text.toList = Nat.toDigits 10 n := Nat.toList_repr
    have hvalue : digitsValue (Nat.toDigits 10 n) = n := by
      rw [digitsValue, ← Nat.ofDigitChars_eq_foldl, Nat.ofDigitChars_ten_toDigits]
    have hdigits : (Nat.toDigits 10 n).all Char.isDigit = true :=
      List.all_eq_true.2 fun c => Nat.isDigit_of_mem_toDigits (by decide) (by decide)
    have hlt : n < lengthLimit := hfits
    simp [parseLength, htext, hdigits, hvalue, hlt]
  | symbol name =>
    -- a name does not start with a digit, so it is not taken for a number
    obtain ⟨c, cs, hcons, hc, -⟩ := exists_cons_of_isIdentifier (hname name rfl)
    have hdigits : name.toList.all Char.isDigit = false := by
      rw [hcons, List.all_cons, isDigit_of_isNameStart hc, Bool.false_and]
    rw [parseLength, ArrayLength.text, hdigits, Bool.and_false, if_neg Bool.false_ne_true,
      String.ofList_toList]
    exact checkName_bind_eq_ok.2 ⟨hname name rfl, rfl⟩

theorem cutBracket?_reverse {front between : List Char} (h : '[' ∉ between) :
    cutBracket? (between.reverse ++ '[' :: front) = some (front, between) := by
  have hother : ∀ c ∈ between.reverse, (c != '[') = true := by
    intro c hc
    rw [bne_iff_ne]
    rintro rfl
    exact h (List.mem_reverse.1 hc)
  rw [cutBracket?, List.dropWhile_append_of_pos hother, List.takeWhile_append_of_pos hother]
  simp

theorem isNameChar_of_mem_length {length : ArrayLength}
    (hname : ∀ name, length = .symbol name → isIdentifier name = true) :
    ∀ c ∈ length.text.toList, isNameChar c = true := by
  cases length with
  | count n =>
    have htext : (ArrayLength.count n).text.toList = Nat.toDigits 10 n := Nat.toList_repr
    rw [htext]
    exact fun c hc =>
      isNameChar_of_isDigit (Nat.isDigit_of_mem_toDigits (by decide) (by decide) hc)
  | symbol name => exact fun c => isNameChar_of_mem (hname name rfl)

/-! ### Reading a whole text -/

theorem parse_starred (hs : s.Clear) (hb : b.Base) (hscope : b.InScope s) {n : Nat}
    (hn : n ≤ CType.maxDepth) : s.parse (b.starred n).canonical = .ok (b.starred n) := by
  have htext : (b.starred n).canonical.toList = (b.starred n).spelling.toList := by
    rw [CType.canonical, hb.suffix_starred, String.append_empty]
  have hlast := hb.last_starred n
  have htrim : trim (b.starred n).spelling.toList = (b.starred n).spelling.toList := by
    refine trim_eq_self (by simpa using hb.head_starred n []) fun c hc => ?_
    rw [← List.head?_reverse] at hc
    rcases hlast c hc with rfl | hc
    · rfl
    · exact isBlank_of_isNameChar hc
  rw [parse, htext, htrim, parseTrimmed]
  -- the text ends in a star or in a name, so no bracket is cut
  split
  next rest hrev =>
    rw [hrev] at hlast
    rcases hlast ']' rfl with h | h <;> cases h
  next => exact parseStarred_spelling hs hb hscope hn _

theorem parse_array (hs : s.Clear) (hb : b.Base) (hscope : b.InScope s) {n : Nat}
    (hn : n ≤ CType.maxDepth) {length : ArrayLength} (hfits : length.Fits)
    (h : CType.array? (b.starred n) length = .ok (.array (b.starred n) length)) :
    s.parse (CType.array (b.starred n) length).canonical = .ok (.array (b.starred n) length) := by
  obtain ⟨-, -, -, -, hname⟩ := CType.array?_eq_ok.1 h
  have hchars := isNameChar_of_mem_length hname
  -- the last opening bracket is the one in front of the length
  have hbracket : '[' ∉ length.text.toList := fun h => by cases hchars '[' h
  have htext : (CType.array (b.starred n) length).canonical.toList =
      (b.starred n).spelling.toList ++ '[' :: (length.text.toList ++ [']']) := by
    simp [CType.canonical, CType.spelling, CType.suffix]
  have hrev : (CType.array (b.starred n) length).canonical.toList.reverse =
      ']' :: (length.text.toList.reverse ++ '[' :: (b.starred n).spelling.toList.reverse) := by
    simp [htext]
  have htrim : trim (CType.array (b.starred n) length).canonical.toList =
      (CType.array (b.starred n) length).canonical.toList := by
    refine trim_eq_self (htext ▸ hb.head_starred n _) fun c hc => ?_
    rw [← List.head?_reverse, hrev] at hc
    cases hc
    rfl
  rw [parse, htrim, parseTrimmed, hrev]
  simp only [cutBracket?_reverse hbracket, trim_eq_of_isNameChar hchars,
    parseLength_text hfits hname, List.reverse_reverse, parseStarred_spelling hs hb hscope hn]
  exact h

/-! ### What a text can name -/

theorem of_parseBase (hs : s.Clear) {text : List Char} {t : CType} (h : s.parseBase text = .ok t) :
    t.Made ∧ t.InScope s := by
  -- struct tags and typedefs are looked up, and what a clear scope holds are identifiers
  unfold parseBase at h
  split at h
  · cases h
  split at h
  · dsimp only at h
    split at h
    next htag =>
      cases h
      have hmem := List.contains_iff_mem.1 htag
      exact ⟨.struct (checkName_bind_eq_ok.2 ⟨hs.tag _ hmem, rfl⟩), hmem⟩
    · cases h
  split at h
  next p _ =>
    cases h
    exact ⟨.primitive p, trivial⟩
  · dsimp only at h
    split at h
    next hname =>
      cases h
      have hmem := List.contains_iff_mem.1 hname
      exact ⟨.typedef (checkName_bind_eq_ok.2 ⟨hs.typedef _ hmem, rfl⟩), hmem⟩
    · cases h

theorem of_parseStarred (hs : s.Clear) {whole text : List Char} {t : CType}
    (h : s.parseStarred whole text = .ok t) : t.Made ∧ t.InScope s := by
  unfold parseStarred at h
  dsimp only at h
  split at h
  · exact absurd h throw_bind_ne_ok
  obtain ⟨b, hb, h⟩ := bind_eq_ok.1 h
  obtain ⟨hmade, hscope⟩ := of_parseBase hs hb
  split at h
  · cases h
    exact ⟨hmade, hscope⟩
  · exact ⟨.pointer hmade h, CType.inScope_of_pointer? h hscope⟩

theorem fits_of_parseLength {text : List Char} {length : ArrayLength}
    (h : parseLength text = .ok length) : length.Fits := by
  unfold parseLength at h
  split at h
  · split at h
    next hlt =>
      cases h
      exact hlt
    · cases h
  · obtain ⟨-, h⟩ := checkName_bind_eq_ok.1 h
    cases h
    trivial

/-- What a text names could have been made, from names that are in scope. -/
theorem of_parseTrimmed (hs : s.Clear) {text : List Char} {t : CType}
    (h : s.parseTrimmed text = .ok t) : t.Made ∧ t.InScope s := by
  unfold parseTrimmed at h
  split at h
  · split at h
    · cases h
    · obtain ⟨length, hlength, h⟩ := bind_eq_ok.1 h
      obtain ⟨element, helement, h⟩ := bind_eq_ok.1 h
      obtain ⟨hmade, hscope⟩ := of_parseStarred hs helement
      refine ⟨.array hmade (fits_of_parseLength hlength) h, ?_⟩
      obtain ⟨rfl, -⟩ := CType.array?_eq_ok.1 h
      exact hscope
  · exact of_parseStarred hs h

/-! ### The text of a type and the types of a text -/

theorem parse_canonical_of_made (hs : s.Made) {t : CType} (ht : t.Made) (hscope : t.InScope s) :
    s.parse t.canonical = .ok t := by
  cases ht.normal with
  | starred hb hn => exact parse_starred hs.clear hb (CType.inScope_starred.1 hscope) hn
  | array hb hn hfits h =>
    exact parse_array hs.clear hb (CType.inScope_starred.1 hscope) hn hfits h

/-- The canonical text of a type names that type, whatever the type and the scope it is read in;
so no two types share a text. And a text names only such types: what was read once is read again
from its own canonical text. -/
theorem parse_canonical {s : Scope} (hs : s.Made) :
    (∀ t : CType, t.Made → t.InScope s → s.parse t.canonical = .ok t) ∧
      (∀ t u : CType, t.Made → t.InScope s → u.Made → u.InScope s →
        t.canonical = u.canonical → t = u) ∧
      ∀ text t, s.parse text = .ok t → t.Made ∧ t.InScope s ∧ s.parse t.canonical = .ok t := by
  refine ⟨fun t => parse_canonical_of_made hs, fun t u ht htscope hu huscope htext => ?_,
    fun text t h => ?_⟩
  · have hparse := parse_canonical_of_made hs ht htscope
    rw [htext, parse_canonical_of_made hs hu huscope] at hparse
    cases hparse
    rfl
  · obtain ⟨hmade, hscope⟩ := of_parseTrimmed hs.clear h
    exact ⟨hmade, hscope, parse_canonical_of_made hs hmade hscope⟩

namespace Sample

/-- A function-pointer typedef. -/
def step : String := "step_t"

/-- A struct and the typedef in scope. -/
def names : Scope :=
  { tags := ["Cell"], typedefs := [step] }

/-- An array, counted by a symbol, of pointers as deep as pointers go. -/
def grid : CType :=
  .array (.pointer (.struct "Cell") 255) (.symbol "GRID_LEN")

/-- An array of handlers, as long as arrays get. -/
def handlers : CType :=
  .array (.typedef step) (.count 18446744073709551615)

theorem made_names : names.Made := by
  have htag : addTag {} "Cell" = .ok { tags := ["Cell"] } := rfl
  have htypedef : addTypedef { tags := ["Cell"] } step = .ok names := rfl
  exact .addTypedef (.addTag .empty htag) htypedef

theorem made_grid : grid.Made := by
  have htag : CType.struct? "Cell" = .ok (.struct "Cell") := rfl
  have hcell : CType.pointer? (.struct "Cell") 200 = .ok (.pointer (.struct "Cell") 200) := rfl
  have hrow : CType.pointer? (.pointer (.struct "Cell") 200) 100 =
      .ok (.pointer (.struct "Cell") 255) := rfl
  have hgrid : CType.array? (.pointer (.struct "Cell") 255) (.symbol "GRID_LEN") = .ok grid := rfl
  have hfits : (ArrayLength.symbol "GRID_LEN").Fits := trivial
  exact .array (.pointer (.pointer (.struct htag) hcell) hrow) hfits hgrid

theorem made_handlers : handlers.Made := by
  have hname : CType.typedef? step = .ok (.typedef step) := rfl
  have hhandlers : CType.array? (.typedef step) (.count 18446744073709551615) =
      .ok handlers := rfl
  have hfits : (ArrayLength.count 18446744073709551615).Fits := by
    unfold ArrayLength.Fits
    decide
  exact .array (.typedef hname) hfits hhandlers

end Sample

open Sample

theorem parse_canonical_sample :
    names.Made ∧ names.parse grid.canonical = .ok grid ∧
      handlers.canonical ≠ grid.canonical ∧
      ∃ t, names.parse " unsigned   int * [ 007 ] " = .ok t ∧
        names.parse t.canonical = .ok t := by
  obtain ⟨hread, hinj, hagain⟩ := parse_canonical made_names
  have hgrid : grid.InScope names := List.mem_cons_self
  have hhandlers : handlers.InScope names := List.mem_cons_self
  have htext : names.parse " unsigned   int * [ 007 ] " =
      .ok (.array (.pointer (.primitive .unsignedInt) 1) (.count 7)) := rfl
  have hne : handlers.canonical ≠ grid.canonical := fun h =>
    nomatch hinj handlers grid made_handlers hhandlers made_grid hgrid h
  exact ⟨made_names, hread grid made_grid hgrid, hne, _, htext, (hagain _ _ htext).2.2⟩

end Scope

end ClassForge.C

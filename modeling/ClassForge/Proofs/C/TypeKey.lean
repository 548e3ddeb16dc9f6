import Mathlib.Data.List.Forall2
import Mathlib.Tactic.TFAE
import ClassForge.C.Signature
import ClassForge.Proofs.C.Canonical

/-!
# Type keys and declarations

Two variables have the same type key just when their declarations are the same but for the names.
A key joins the pointer levels of a type and the one that the declaration adds; a declaration writes
the levels one behind the other. So both are made from the same parts (`TypeParts`), and each part
can be read back from the texts: the bracket is at the end, the stars are in front of it, and no
base begins like a qualifier.
-/

namespace ClassForge.C

open Text

namespace CType

/-! ### Bases and stars -/

theorem Base.base_starred {b : CType} (hb : b.Base) (n : Nat) : (b.starred n).base = b := by
  unfold starred
  split
  · cases hb <;> rfl
  · rfl

theorem Base.depth_starred {b : CType} (hb : b.Base) (n : Nat) : (b.starred n).depth = n := by
  unfold starred
  split
  next h =>
    subst h
    cases hb <;> rfl
  · rfl

theorem starred_inj {b c : CType} (hb : b.Base) (hc : c.Base) {n m : Nat}
    (h : b.starred n = c.starred m) : b = c ∧ n = m := by
  refine ⟨?_, ?_⟩
  · rw [← hb.base_starred n, h, hc.base_starred]
  · rw [← hb.depth_starred n, h, hc.depth_starred]

/-- No base begins like a qualifier: of those with a space, none begins with a qualifier's word. -/
theorem Base.not_qualified {b : CType} (hb : b.Base) :
    ¬ "const ".toList <+: b.spelling.toList ∧ ¬ "volatile ".toList <+: b.spelling.toList := by
  cases hb with
  | primitive p => cases p <;> decide
  | @struct tag h =>
    -- the first characters differ
    rw [toList_spelling_struct]
    exact ⟨fun hbegins => absurd (List.cons_prefix_cons.1 hbegins).1 (by decide),
      fun hbegins => absurd (List.cons_prefix_cons.1 hbegins).1 (by decide)⟩
  | typedef h =>
    have hspace : ' ' ∉ _ := notMem_of_isIdentifier h (by decide)
    exact ⟨fun hbegins => hspace (hbegins.subset (by decide)),
      fun hbegins => hspace (hbegins.subset (by decide))⟩

theorem forall_space_or_nameChar {cs : List Char}
    (h : (cs.all fun c => c == ' ' || isNameChar c) = true) :
    ∀ c ∈ cs, c = ' ' ∨ isNameChar c = true := by
  simpa using h

/-- A base is written with the characters of identifiers, and spaces. -/
theorem Base.mem_spelling {b : CType} (hb : b.Base) :
    ∀ c ∈ b.spelling.toList, c = ' ' ∨ isNameChar c = true := by
  cases hb with
  | primitive p => cases p <;> exact forall_space_or_nameChar rfl
  | struct h =>
    intro c hc
    rw [toList_spelling_struct, List.mem_append] at hc
    rcases hc with hc | hc
    · exact forall_space_or_nameChar rfl c hc
    · exact .inr (isNameChar_of_mem h hc)
  | typedef h => exact fun c hc => .inr (isNameChar_of_mem h hc)

end CType

/-! ### The parts of a declared type -/

/-- What a declared type is put together from, wherever its pointer levels come from. -/
structure TypeParts where
  const : Bool
  volatile : Bool
  base : CType
  depth : Nat
  length : Option ArrayLength

namespace TypeParts

/-- The type key that is put together from the parts. -/
def key (q : TypeParts) : TypeKey :=
  match q.length with
  | none => { base := q.base, depth := q.depth, const := q.const, volatile := q.volatile }
  | some l =>
    { base := .array (q.base.starred q.depth) l, depth := 0, const := q.const,
      volatile := q.volatile }

/-- What stands in front of the declared name. -/
def front (q : TypeParts) : String :=
  Qualifiers.leading { const := q.const, volatile := q.volatile } ++ q.base.spelling
    ++ CType.stars q.depth

/-- What stands behind the declared name. -/
def back (q : TypeParts) : String :=
  match q.length with
  | none => ""
  | some l => "[" ++ l.text ++ "]"

/-- The parts of types that were made from names in scope. -/
structure Fits (q : TypeParts) (s : Scope) : Prop where
  base : q.base.Base
  inScope : q.base.InScope s
  length : ∀ l ∈ q.length, l.Fits ∧ ∀ name, l = .symbol name → isIdentifier name = true

variable {q r : TypeParts} {s : Scope}

theorem text_key (hq : q.Fits s) : q.key.text = q.front ++ q.back := by
  unfold key TypeKey.text front back
  cases q.length with
  | none =>
    have hsuffix := hq.base.suffix_starred 0
    rw [CType.starred_zero] at hsuffix
    rw [hsuffix]
  | some l =>
    simp only [CType.spelling, CType.suffix, CType.spelling_starred, CType.stars,
      List.replicate_zero, String.append_assoc]
    rfl

theorem key_inj (hq : q.Fits s) (hr : r.Fits s) (h : q.key = r.key) : q = r := by
  obtain ⟨_, _, b, n, length⟩ := q
  obtain ⟨_, _, c, m, length'⟩ := r
  have hb := hq.base
  have hc := hr.base
  -- only keys of arrays have an array as their base, so the lengths agree
  cases length with
  | none =>
    cases length' with
    | none =>
      cases h
      rfl
    | some l =>
      cases h
      cases hb
  | some l =>
    cases length' with
    | none =>
      cases h
      cases hc
    | some l' =>
      simp only [key, TypeKey.mk.injEq, CType.array.injEq] at h
      obtain ⟨⟨hstarred, rfl⟩, -, rfl, rfl⟩ := h
      obtain ⟨rfl, rfl⟩ := CType.starred_inj hb hc hstarred
      rfl

/-! ### Parts that are read back -/

/-- What may stand in front of a text is told from the text, which does not begin like it. -/
theorem optional_inj {a x y : List Char} {b c : Bool} (hx : ¬ a <+: x) (hy : ¬ a <+: y)
    (h : (if b then a else []) ++ x = (if c then a else []) ++ y) : b = c ∧ x = y := by
  cases b <;> cases c
  · exact ⟨rfl, h⟩
  · exact absurd ⟨y, h.symm⟩ hx
  · exact absurd ⟨x, h⟩ hy
  · exact ⟨rfl, List.append_cancel_left h⟩

theorem toList_leading (const volatile : Bool) :
    (Qualifiers.leading { const, volatile }).toList =
      (if const then "const ".toList else []) ++ (if volatile then "volatile ".toList else []) := by
  cases const <;> cases volatile <;> rfl

theorem toList_front (q : TypeParts) : q.front.toList =
    (if q.const then "const ".toList else []) ++ (if q.volatile then "volatile ".toList else []) ++
      q.base.spelling.toList ++ List.replicate q.depth '*' := by
  rw [front, String.toList_append, String.toList_append, toList_leading, CType.toList_stars]

/-- The stars are cut off from the end, up to the base. -/
theorem cutStars_front {b : CType} (hb : b.Base) (leading : List Char) (n : Nat) :
    Scope.cutStars (leading ++ b.spelling.toList ++ List.replicate n '*').reverse =
      (n, (leading ++ b.spelling.toList).reverse) := by
  obtain ⟨c, cs, hrev, hc⟩ := hb.exists_reverse
  rw [List.reverse_append, List.reverse_replicate, List.reverse_append, hrev, List.cons_append,
    Scope.cutStars_replicate n _ hc]

theorem spelling_inj (hs : s.Clear) {b c : CType} (hb : b.Base) (hbs : b.InScope s) (hc : c.Base)
    (hcs : c.InScope s) (h : b.spelling.toList = c.spelling.toList) : b = c := by
  have hread := Scope.parseBase_spelling hs hb hbs
  rw [h, Scope.parseBase_spelling hs hc hcs] at hread
  cases hread
  rfl

theorem front_inj (hs : s.Clear) (hq : q.Fits s) (hr : r.Fits s)
    (h : q.front.toList = r.front.toList) :
    q.const = r.const ∧ q.volatile = r.volatile ∧ q.base = r.base ∧ q.depth = r.depth := by
  rw [toList_front, toList_front] at h
  -- the stars come off the end first, then the qualifiers off the front, and the base is left
  have hcut := cutStars_front hq.base
    ((if q.const then "const ".toList else []) ++ if q.volatile then "volatile ".toList else [])
    q.depth
  rw [h, cutStars_front hr.base, Prod.mk.injEq, List.reverse_inj, List.append_assoc,
    List.append_assoc] at hcut
  obtain ⟨hdepth, htext⟩ := hcut
  have hconst {q : TypeParts} (hq : q.Fits s) : ¬ "const ".toList <+:
      (if q.volatile then "volatile ".toList else []) ++ q.base.spelling.toList := by
    cases q.volatile with
    | false => exact hq.base.not_qualified.1
    | true => exact fun hbegins => absurd (List.cons_prefix_cons.1 hbegins).1 (by decide)
  obtain ⟨hc, htext⟩ := optional_inj (hconst hq) (hconst hr) htext.symm
  obtain ⟨hv, htext⟩ := optional_inj hq.base.not_qualified.2 hr.base.not_qualified.2 htext
  exact ⟨hc, hv, spelling_inj hs hq.base hq.inScope hr.base hr.inScope htext, hdepth.symm⟩

theorem text_length_inj (hq : q.Fits s) (hr : r.Fits s) {l l' : ArrayLength} (hl : l ∈ q.length)
    (hl' : l' ∈ r.length) (h : l.text.toList = l'.text.toList) : l = l' := by
  have hread := Scope.parseLength_text (hq.length l hl).1 (hq.length l hl).2
  rw [h, Scope.parseLength_text (hr.length l' hl').1 (hr.length l' hl').2] at hread
  cases hread
  rfl

theorem toList_back (q : TypeParts) : q.back.toList =
    match q.length with
    | none => []
    | some l => '[' :: (l.text.toList ++ [']']) := by
  unfold back
  cases q.length with
  | none => rfl
  | some l =>
    rw [String.toList_append, String.toList_append, List.append_assoc]
    rfl

theorem back_inj (hq : q.Fits s) (hr : r.Fits s) (h : q.back.toList = r.back.toList) :
    q.length = r.length := by
  rw [toList_back, toList_back] at h
  cases hlength : q.length with
  | none =>
    cases hlength' : r.length with
    | none => rfl
    | some l' => simp [hlength, hlength'] at h
  | some l =>
    cases hlength' : r.length with
    | none => simp [hlength, hlength'] at h
    | some l' =>
      simp only [hlength, hlength', List.cons.injEq, true_and, List.append_cancel_right_eq] at h
      rw [text_length_inj hq hr hlength hlength' h]

/-- A text is split where its first bracket is. -/
theorem bracket_inj {xs ys xs' ys' : List Char} (hxs : '[' ∉ xs) (hxs' : '[' ∉ xs')
    (hys : ∀ c ∈ ys.head?, c = '[') (hys' : ∀ c ∈ ys'.head?, c = '[')
    (h : xs ++ ys = xs' ++ ys') : xs = xs' ∧ ys = ys' := by
  have htake {xs ys : List Char} (hxs : '[' ∉ xs) (hys : ∀ c ∈ ys.head?, c = '[') :
      (xs ++ ys).takeWhile (· != '[') = xs := by
    rw [List.takeWhile_append_of_pos fun c hc => bne_iff_ne.2 (ne_of_mem_of_not_mem hc hxs)]
    cases ys with
    | nil => simp
    | cons c ys => simp [hys c rfl]
  have hfront : xs = xs' := by
    rw [← htake hxs hys, h, htake hxs' hys']
  subst hfront
  exact ⟨rfl, List.append_cancel_left h⟩

/-- What stands in front of a declared name has, the stars aside, the characters of identifiers and
spaces. -/
theorem notMem_front (hq : q.Fits s) {c : Char} (hname : isNameChar c = false) (hspace : c ≠ ' ')
    (hstar : c ≠ '*') : c ∉ q.front.toList := by
  -- of each word, whether it is there or not, the characters are blanks or those of names
  have hword {b : Bool} {word : String}
      (h : (word.toList.all fun c => c == ' ' || isNameChar c) = true) :
      ∀ c ∈ (if b then word.toList else []), c = ' ' ∨ isNameChar c = true := by
    cases b with
    | false => nofun
    | true => exact CType.forall_space_or_nameChar h
  have hother {cs : List Char} (h : ∀ c ∈ cs, c = ' ' ∨ isNameChar c = true) : c ∉ cs :=
    fun hc => (h c hc).elim hspace fun hc => Bool.false_ne_true (hname.symm.trans hc)
  rw [toList_front]
  simp only [List.mem_append, not_or]
  refine ⟨⟨⟨hother (hword ?_), hother (hword ?_)⟩, hother hq.base.mem_spelling⟩, ?_⟩
  · rfl
  · rfl
  · -- behind the words there are only stars
    exact fun hc => hstar (List.mem_replicate.1 hc).2

theorem head_back (q : TypeParts) : ∀ c ∈ q.back.toList.head?, c = '[' := by
  rw [toList_back]
  cases q.length with
  | none => nofun
  | some l => exact fun c hc => (Option.some.inj hc).symm

/-- The parts are read back from a text that has the declared name in its place, or nothing. -/
theorem text_inj (hs : s.Clear) (hq : q.Fits s) (hr : r.Fits s) {mid : String}
    (hmid : '[' ∉ mid.toList) (h : q.front ++ mid ++ q.back = r.front ++ mid ++ r.back) :
    q = r := by
  have hlists := congrArg String.toList h
  simp only [String.toList_append] at hlists
  have hmem {q : TypeParts} (hq : q.Fits s) : '[' ∉ q.front.toList ++ mid.toList := fun h =>
    (List.mem_append.1 h).elim (notMem_front hq rfl (by decide) (by decide)) hmid
  -- no bracket stands in front of the one that opens the length
  obtain ⟨hfront, hback⟩ := bracket_inj (hmem hq) (hmem hr) q.head_back r.head_back hlists
  obtain ⟨hconst, hvolatile, hbase, hdepth⟩ :=
    front_inj hs hq hr (List.append_cancel_right hfront)
  have hlength := back_inj hq hr hback
  cases q
  cases r
  cases hconst
  cases hvolatile
  cases hbase
  cases hdepth
  cases hlength
  rfl

end TypeParts

/-! ### Declared variables -/

namespace Variable

theorem declare_eq_ok {name : String} {type : CType} {pointer : Bool} {quals : Qualifiers}
    {v : Variable} : declare name type pointer quals = .ok v ↔
      isIdentifier name = true ∧ (pointer && type.isArray) = false ∧
        v = { name, type, pointer, quals } := by
  rw [declare, checkName_bind_eq_ok]
  refine and_congr_right fun _ => ?_
  cases pointer && type.isArray with
  | true =>
    simp only [if_true, Bool.true_eq_false, false_and, iff_false]
    exact throw_bind_ne_ok
  | false =>
    simp only [Bool.false_eq_true, if_false, true_and]
    exact pure_eq_ok.trans eq_comm

/-- A variable that passed the check, with a type that was made from names in scope, and without a
storage class. -/
structure Accepted (s : Scope) (v : Variable) : Prop where
  declared : declare v.name v.type v.pointer v.quals = .ok v
  made : v.type.Made
  inScope : v.type.InScope s
  storage : v.quals.storage = none

/-- The declarations are the same once both variables have the same name, whatever the name. -/
def SameDeclaration (v w : Variable) : Prop :=
  ∀ name, isIdentifier name = true →
    ∃ v' w', v.rename name = .ok v' ∧ w.rename name = .ok w' ∧ v'.text = w'.text

variable {s : Scope} {v w : Variable}

theorem Accepted.rename_eq_ok (h : Accepted s v) {name : String} {v' : Variable} :
    v.rename name = .ok v' ↔ isIdentifier name = true ∧ v' = { v with name } := by
  obtain ⟨-, harray, -⟩ := declare_eq_ok.1 h.declared
  simp [rename, declare_eq_ok, harray]

theorem leading_eq (hv : v.quals.storage = none) : v.quals.leading =
    Qualifiers.leading { const := v.quals.const, volatile := v.quals.volatile } := by
  unfold Qualifiers.leading
  rw [hv]

theorem stars_add_flag (n : Nat) (pointer : Bool) :
    CType.stars (n + if pointer then 1 else 0) = CType.stars n ++ if pointer then "*" else "" := by
  cases pointer with
  | false => exact (String.append_empty).symm
  | true =>
    rw [← String.toList_inj, if_pos rfl, if_pos rfl, String.toList_append, CType.toList_stars,
      CType.toList_stars, List.replicate_succ']
    rfl

/-- The parts that the key of a variable and its declaration under any name are made from. -/
theorem Accepted.exists_parts (h : Accepted s v) : ∃ q : TypeParts, q.Fits s ∧ v.key = q.key ∧
    ∀ name, text { v with name } = q.front ++ (" " ++ name) ++ q.back := by
  obtain ⟨-, harray, -⟩ := declare_eq_ok.1 h.declared
  have hnormal := h.made.normal
  have hscope := h.inScope
  generalize htype : v.type = t at hnormal hscope harray
  cases hnormal with
  | @starred b n hb _ =>
    refine ⟨⟨v.quals.const, v.quals.volatile, b, n + if v.pointer then 1 else 0, none⟩,
      ⟨hb, CType.inScope_starred.1 hscope, nofun⟩, ?_, fun name => ?_⟩
    · simp only [TypeUse.key, TypeUse.base, TypeUse.depth, TypeParts.key, htype, hb.base_starred,
        hb.depth_starred]
    · simp only [text, TypeUse.spelling, TypeParts.front, TypeParts.back, leading_eq h.storage,
        htype, CType.spelling_starred, hb.suffix_starred, stars_add_flag, String.append_assoc]
  | @array b n length hb _ hfits hmade =>
    -- a declaration adds no pointer level to an array
    have hpointer : v.pointer = false := by simpa [CType.isArray] using harray
    obtain ⟨-, -, -, -, hname⟩ := CType.array?_eq_ok.1 hmade
    refine ⟨⟨v.quals.const, v.quals.volatile, b, n, some length⟩,
      ⟨hb, CType.inScope_starred.1 hscope, ?_⟩, ?_, fun name => ?_⟩
    · rintro l hl
      cases hl
      exact ⟨hfits, hname⟩
    · simp only [TypeUse.key, TypeUse.base, TypeUse.depth, TypeParts.key, htype, hpointer]
      rfl
    · simp only [text, TypeUse.spelling, TypeParts.front, TypeParts.back, leading_eq h.storage,
        htype, CType.spelling, CType.suffix, CType.spelling_starred, hpointer, Bool.false_eq_true,
        if_false, String.append_empty, String.append_assoc]

/-! ### Keys and declarations -/

theorem key_text_inj (hs : s.Clear) (hv : Accepted s v) (hw : Accepted s w)
    (h : v.key.text = w.key.text) : v.key = w.key := by
  obtain ⟨q, hq, hvkey, -⟩ := hv.exists_parts
  obtain ⟨r, hr, hwkey, -⟩ := hw.exists_parts
  rw [hvkey, hwkey, TypeParts.text_key hq, TypeParts.text_key hr,
    ← q.front.append_empty, ← r.front.append_empty] at h
  rw [hvkey, hwkey, TypeParts.text_inj hs hq hr (by decide) h]

theorem text_inj (hs : s.Clear) (hv : Accepted s v) (hw : Accepted s w) {name : String}
    (hname : isIdentifier name = true) (h : text { v with name } = text { w with name }) :
    v.key = w.key := by
  obtain ⟨q, hq, hvkey, hvtext⟩ := hv.exists_parts
  obtain ⟨r, hr, hwkey, hwtext⟩ := hw.exists_parts
  have hmid : '[' ∉ (" " ++ name).toList := by
    rw [String.toList_append, List.mem_append, not_or]
    exact ⟨by decide, notMem_of_isIdentifier hname (by decide)⟩
  rw [hvtext, hwtext] at h
  rw [hvkey, hwkey, TypeParts.text_inj hs hq hr hmid h]

theorem text_eq_of_key (hv : Accepted s v) (hw : Accepted s w) (h : v.key = w.key)
    (name : String) : text { v with name } = text { w with name } := by
  obtain ⟨q, hq, hvkey, hvtext⟩ := hv.exists_parts
  obtain ⟨r, hr, hwkey, hwtext⟩ := hw.exists_parts
  rw [hvkey, hwkey] at h
  rw [hvtext, hwtext, TypeParts.key_inj hq hr h]

theorem key_tfae (hs : s.Clear) (hv : Accepted s v) (hw : Accepted s w) :
    [v.key = w.key, v.key.text = w.key.text, SameDeclaration v w,
      ∃ name v' w', v.rename name = .ok v' ∧ w.rename name = .ok w' ∧
        v'.text = w'.text].TFAE := by
  tfae_have 1 → 2 := congrArg TypeKey.text
  tfae_have 2 → 1 := key_text_inj hs hv hw
  tfae_have 1 → 3 := fun h name hname =>
    ⟨_, _, hv.rename_eq_ok.2 ⟨hname, rfl⟩, hw.rename_eq_ok.2 ⟨hname, rfl⟩,
      text_eq_of_key hv hw h name⟩
  -- any identifier will do to tell the two apart
  tfae_have 3 → 4 := fun h => ⟨"x", h "x" rfl⟩
  tfae_have 4 → 1 := by
    rintro ⟨name, v', w', hv', hw', htext⟩
    obtain ⟨hname, rfl⟩ := hv.rename_eq_ok.1 hv'
    obtain ⟨-, rfl⟩ := hw.rename_eq_ok.1 hw'
    exact text_inj hs hv hw hname htext
  tfae_finish

theorem map_key_eq_iff (hs : s.Clear) {ps qs : List Variable} (hps : ∀ p ∈ ps, Accepted s p)
    (hqs : ∀ q ∈ qs, Accepted s q) :
    ps.map (·.key) = qs.map (·.key) ↔ List.Forall₂ SameDeclaration ps qs := by
  induction ps generalizing qs with
  | nil => rw [List.forall₂_nil_left_iff, List.map_nil, eq_comm, List.map_eq_nil_iff]
  | cons p ps ih =>
    cases qs with
    | nil => simp [List.forall₂_nil_right_iff]
    | cons q qs =>
      rw [List.forall_mem_cons] at hps hqs
      have hkey : p.key = q.key ↔ SameDeclaration p q := (key_tfae hs hps.1 hqs.1).out 0 2
      rw [List.map_cons, List.map_cons, List.cons.injEq, List.forall₂_cons, ih hps.2 hqs.2, hkey]

/-- For variables that passed the check, the same type key, the same text of the key, and the same
declaration under one name, be it any name or some name, are one and the same. So functions that
return the same type are compatible just when each parameter of one is declared as the parameter in
its place in the other, whichever pointer levels are the type's and which the parameter's. -/
theorem compatible_iff_sameDeclaration {s : Scope} (hs : s.Made) :
    (∀ v w : Variable, Accepted s v → Accepted s w →
      [v.key = w.key, v.key.text = w.key.text, SameDeclaration v w,
        ∃ name v' w', v.rename name = .ok v' ∧ w.rename name = .ok w' ∧
          v'.text = w'.text].TFAE) ∧
    ∀ t u : Signature, (∀ p ∈ t.params, Accepted s p) → (∀ p ∈ u.params, Accepted s p) →
      t.returns.key = u.returns.key →
        (t.compatible u = true ↔ List.Forall₂ SameDeclaration t.params u.params) := by
  refine ⟨fun v w => key_tfae hs.clear, fun t u ht hu hreturns => ?_⟩
  rw [← map_key_eq_iff hs.clear ht hu]
  simp [Signature.compatible, Signature.keys, hreturns]

namespace Sample

open Scope.Sample

/-- A pointer to pointers, of which the type has one level and the declaration the other. -/
def rows : Variable where
  name := "rows"
  type := .pointer (.struct "Cell") 1
  pointer := true
  quals := { const := true }

/-- The same, with both levels in the type. -/
def table : Variable :=
  { name := "table", type := .pointer (.struct "Cell") 2, quals := { const := true } }

/-- An array of such pointers. -/
def tables : Variable where
  name := "tables"
  type := .array (.pointer (.struct "Cell") 2) (.count 4)
  quals := { const := true }

theorem made_cells {n : Nat} (h : n ≠ 0) (hn : n ≤ CType.maxDepth) :
    (CType.pointer (.struct "Cell") n).Made := by
  have htag : CType.struct? "Cell" = .ok (.struct "Cell") := rfl
  have hpointer : CType.pointer? (.struct "Cell") n = .ok (.pointer (.struct "Cell") n) := by
    simp [CType.pointer?, h, Nat.min_eq_right hn]
  exact .pointer (.struct htag) hpointer

theorem accepted_rows : Accepted names rows where
  declared := rfl
  made := made_cells (by decide) (by decide)
  inScope := List.mem_cons_self
  storage := rfl

theorem accepted_table : Accepted names table where
  declared := rfl
  made := made_cells (by decide) (by decide)
  inScope := List.mem_cons_self
  storage := rfl

theorem accepted_tables : Accepted names tables where
  declared := rfl
  made := by
    have harray : CType.array? (.pointer (.struct "Cell") 2) (.count 4) = .ok tables.type := rfl
    have hfits : (ArrayLength.count 4).Fits := by
      unfold ArrayLength.Fits
      decide
    exact .array (made_cells (by decide) (by decide)) hfits harray
  inScope := List.mem_cons_self
  storage := rfl

/-- A function of one parameter. -/
def reader (param : Variable) : Signature :=
  { name := "read", params := [param], returns := .void, role := .free }

end Sample

open Scope.Sample Sample

theorem compatible_iff_sameDeclaration_sample :
    names.Made ∧ Accepted names rows ∧ Accepted names table ∧ Accepted names tables ∧
      SameDeclaration rows table ∧ table.key.text ≠ tables.key.text ∧
      List.Forall₂ SameDeclaration (reader rows).params (reader table).params ∧
      ¬ List.Forall₂ SameDeclaration (reader rows).params (reader tables).params := by
  obtain ⟨hvariables, hsignatures⟩ := compatible_iff_sameDeclaration made_names
  have hrows : ∀ p ∈ (reader rows).params, Accepted names p :=
    List.forall_mem_singleton.2 accepted_rows
  have htable : ∀ p ∈ (reader table).params, Accepted names p :=
    List.forall_mem_singleton.2 accepted_table
  have htables : ∀ p ∈ (reader tables).params, Accepted names p :=
    List.forall_mem_singleton.2 accepted_tables
  have hsame : SameDeclaration rows table :=
    ((hvariables rows table accepted_rows accepted_table).out 0 2).1 rfl
  have hother : table.key.text ≠ tables.key.text := fun h => by
    cases ((hvariables table tables accepted_table accepted_tables).out 1 0).1 h
  have hcompatible : (reader rows).compatible (reader table) = true := rfl
  have hincompatible : (reader rows).compatible (reader tables) = false := rfl
  refine ⟨made_names, accepted_rows, accepted_table, accepted_tables, hsame, hother,
    (hsignatures _ _ hrows htable rfl).1 hcompatible, fun h => ?_⟩
  cases hincompatible.symm.trans ((hsignatures _ _ hrows htables rfl).2 h)

end Variable

end ClassForge.C

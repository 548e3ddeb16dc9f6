import ClassForge.Proofs.C.Signature
import ClassForge.Proofs.C.TypeKey
import ClassForge.Proofs.Text.Split

/-!
# Function-pointer types

The typedef of a slot is written from the signature of its method. Its text is taken apart here: at
the parenthesis, where the result ends, and at the commas, where a parameter ends. A parameter is
declared with its whole type, so the text determines the parameters' names and types. The result is
only spelled, and the spelling of an array is that of its elements: what it leaves out
(`TypeUse.unspelled`) is just what the text does not determine.
-/

namespace ClassForge.C

/-! ### What a spelling leaves out -/

/-- The length of an array. -/
def CType.length? : CType → Option ArrayLength
  | array _ length => some length
  | _ => none

/-- What the spelling of a type leaves out: how long an array is, and whether the pointer level that
the use adds is one to the array or belongs to the elements. -/
def TypeUse.unspelled (u : TypeUse) : Option (ArrayLength × Bool) :=
  u.type.length?.map fun length => (length, u.pointer)

theorem CType.Base.length?_starred {b : CType} (hb : b.Base) (n : Nat) :
    (b.starred n).length? = none := by
  unfold starred
  split
  · cases hb <;> rfl
  · rfl

theorem CType.length?_eq_none {t : CType} (h : t.isArray = false) : t.length? = none := by
  cases t with
  | array => cases h
  | primitive | pointer | struct | typedef => rfl

/-- The elements of an array can be made on their own, and are no arrays. -/
theorem CType.Made.element {element : CType} {length : ArrayLength}
    (h : (CType.array element length).Made) : element.Made ∧ element.isArray = false := by
  generalize ht : CType.array element length = t at h
  cases h with
  | primitive => cases ht
  | pointer _ h =>
    subst ht
    -- a pointer constructor gives pointers, whatever its target
    unfold pointer? at h
    split at h
    · cases h
    · split at h <;> cases h
  | array helement _ h =>
    obtain ⟨rfl, hflat, -⟩ := array?_eq_ok.1 h
    cases ht
    exact ⟨helement, hflat⟩
  | struct h =>
    obtain ⟨-, h⟩ := checkName_bind_eq_ok.1 h
    cases h
    cases ht
  | typedef h =>
    obtain ⟨-, h⟩ := checkName_bind_eq_ok.1 h
    cases h
    cases ht

namespace TypeParts

/-- The key of a type that is spelled with the parts, given what the spelling leaves out. -/
def keyWith (q : TypeParts) : Option (ArrayLength × Bool) → TypeKey
  | none => { base := q.base, depth := q.depth, const := q.const, volatile := q.volatile }
  | some (length, pointer) =>
    let added := if pointer then 1 else 0
    { base := .array (q.base.starred (q.depth - added)) length, depth := added, const := q.const,
      volatile := q.volatile }

theorem keyWith_inj {q : TypeParts} (hq : q.base.Base) {a b : Option (ArrayLength × Bool)}
    (h : q.keyWith a = q.keyWith b) : a = b := by
  -- with a length the base of the key is an array, without one it is a base of types
  have hbase {l : ArrayLength × Bool} : q.keyWith none ≠ q.keyWith (some l) := by
    intro h
    have harray : q.base = .array _ l.1 := congrArg TypeKey.base h
    rw [harray] at hq
    cases hq
  cases a with
  | none =>
    cases b with
    | none => rfl
    | some => exact absurd h hbase
  | some l =>
    cases b with
    | none => exact absurd h.symm hbase
    | some l' =>
      obtain ⟨length, pointer⟩ := l
      obtain ⟨length', pointer'⟩ := l'
      simp only [keyWith, TypeKey.mk.injEq, CType.array.injEq] at h
      obtain ⟨⟨-, rfl⟩, hadded, -⟩ := h
      -- whether there is one more star is told from the depth
      cases pointer <;> cases pointer' <;> first | rfl | cases hadded

end TypeParts

namespace TypeUse

variable {s : Scope} {u v : TypeUse}

/-- A use of a type that was made from names in scope, without a storage class. -/
structure Accepted (s : Scope) (u : TypeUse) : Prop where
  made : u.type.Made
  inScope : u.type.InScope s
  storage : u.quals.storage = none

/-- The parts that a use is spelled with, and its key from them. -/
theorem Accepted.exists_parts (h : Accepted s u) : ∃ q : TypeParts, q.Fits s ∧ q.length = none ∧
    u.spelling = q.front ∧ u.key = q.keyWith u.unspelled := by
  have hleading : u.quals.leading =
      Qualifiers.leading { const := u.quals.const, volatile := u.quals.volatile } := by
    unfold Qualifiers.leading
    rw [h.storage]
  have hnormal := h.made.normal
  have hscope := h.inScope
  generalize htype : u.type = t at hnormal hscope
  -- the added level is one star more behind the base, in an array as elsewhere
  cases hnormal with
  | @starred b n hb _ =>
    refine ⟨⟨u.quals.const, u.quals.volatile, b, n + if u.pointer then 1 else 0, none⟩,
      ⟨hb, CType.inScope_starred.1 hscope, nofun⟩, rfl, ?_, ?_⟩
    · simp only [spelling, TypeParts.front, hleading, htype, CType.spelling_starred,
        Variable.stars_add_flag, String.append_assoc]
    · simp only [key, base, depth, unspelled, htype, hb.base_starred, hb.depth_starred,
        hb.length?_starred, Option.map_none, TypeParts.keyWith]
  | @array b n length hb _ _ _ =>
    refine ⟨⟨u.quals.const, u.quals.volatile, b, n + if u.pointer then 1 else 0, none⟩,
      ⟨hb, CType.inScope_starred.1 hscope, nofun⟩, rfl, ?_, ?_⟩
    · simp only [spelling, TypeParts.front, hleading, htype, CType.spelling,
        CType.spelling_starred, Variable.stars_add_flag, String.append_assoc]
    · simp only [key, base, depth, unspelled, htype, CType.base, CType.depth, CType.length?,
        Option.map_some, TypeParts.keyWith, Nat.add_sub_cancel, Nat.zero_add]

/-- Uses that are spelled alike have the same key just when the spelling leaves out the same. -/
theorem Accepted.key_eq_iff (hs : s.Clear) (hu : Accepted s u) (hv : Accepted s v)
    (h : u.spelling = v.spelling) : u.key = v.key ↔ u.unspelled = v.unspelled := by
  obtain ⟨q, hq, hqlength, hqfront, hukey⟩ := hu.exists_parts
  obtain ⟨r, hr, hrlength, hrfront, hvkey⟩ := hv.exists_parts
  have hfront : q.front.toList = r.front.toList := by rw [← hqfront, h, hrfront]
  obtain ⟨hconst, hvolatile, hbase, hdepth⟩ := TypeParts.front_inj hs hq hr hfront
  obtain rfl : q = r := by
    cases q
    cases r
    simp_all
  rw [hukey, hvkey]
  exact ⟨TypeParts.keyWith_inj hq.base, congrArg _⟩

end TypeUse

/-! ### Declared parameters -/

namespace Variable

variable {s : Scope} {v w : Variable}

theorem notMem_text (hv : Accepted s v) {c : Char} (hname : isNameChar c = false)
    (hc : c ∉ [' ', '*', '[', ']']) : c ∉ v.text.toList := by
  obtain ⟨q, hq, -, htext⟩ := hv.exists_parts
  obtain ⟨hvname, -⟩ := declare_eq_ok.1 hv.declared
  -- the three parts of the text: the bracket, what stands in front of the name, and the name
  have hback : c ∉ q.back.toList := by
    rw [TypeParts.toList_back]
    cases hlength : q.length with
    | none => exact List.not_mem_nil
    | some l =>
      have hl : c ∉ l.text.toList := fun hmem => by
        have hchar := Scope.isNameChar_of_mem_length (hq.length l hlength).2 c hmem
        exact Bool.false_ne_true (hname.symm.trans hchar)
      simp_all
  have hfront : c ∉ q.front.toList :=
    TypeParts.notMem_front hq hname (fun h => hc (by simp [h])) (fun h => hc (by simp [h]))
  have hown : c ∉ v.name.toList := notMem_of_isIdentifier hvname hname
  rw [show v.text = _ from htext v.name]
  simp_all

/-- The name is read off a declaration: it is the last word in front of the bracket. -/
theorem name_eq_of_text (hv : Accepted s v) (hw : Accepted s w) (h : v.text = w.text) :
    v.name = w.name := by
  obtain ⟨q, hq, -, hvtext⟩ := hv.exists_parts
  obtain ⟨r, hr, -, hwtext⟩ := hw.exists_parts
  obtain ⟨hvname, -⟩ := declare_eq_ok.1 hv.declared
  obtain ⟨hwname, -⟩ := declare_eq_ok.1 hw.declared
  have hlists : (q.front.toList ++ ' ' :: v.name.toList) ++ q.back.toList =
      (r.front.toList ++ ' ' :: w.name.toList) ++ r.back.toList := by
    have hlists := congrArg String.toList h
    rw [show v.text = _ from hvtext v.name, show w.text = _ from hwtext w.name] at hlists
    simpa using hlists
  -- a bracket opens only behind the name, so that is where both texts are split
  have hbracket {q : TypeParts} (hq : q.Fits s) {name : String} (hname : isIdentifier name = true) :
      '[' ∉ q.front.toList ++ ' ' :: name.toList := by
    have hfront := TypeParts.notMem_front hq (c := '[') rfl (by decide) (by decide)
    have hown : '[' ∉ name.toList := notMem_of_isIdentifier hname rfl
    simp_all
  obtain ⟨hwords, -⟩ := TypeParts.bracket_inj (hbracket hq hvname) (hbracket hr hwname)
    q.head_back r.head_back hlists
  -- the name is the last word of what stands in front of the bracket
  have hlast := append_cons_inj_right (notMem_of_isIdentifier hvname rfl)
    (notMem_of_isIdentifier hwname rfl) hwords
  exact String.toList_inj.1 hlast.2

/-- So is the type. -/
theorem key_eq_of_text (hs : s.Clear) (hv : Accepted s v) (hw : Accepted s w)
    (h : v.text = w.text) : v.key = w.key := by
  have hname := name_eq_of_text hv hw h
  obtain ⟨hvname, -⟩ := declare_eq_ok.1 hv.declared
  obtain ⟨use, name⟩ := w
  cases hname
  exact text_inj hs hv hw hvname h

end Variable

/-! ### The typedef of a slot -/

namespace Signature

open Variable (name_eq_of_text key_eq_of_text notMem_text)

variable {s : Scope} {t u : Signature}

/-- A signature that passed the check, over types that were made from names in scope. -/
structure Accepted (s : Scope) (t : Signature) : Prop where
  declared : declare t.name t.params t.returns t.role = .ok t
  params : ∀ p ∈ t.params, Variable.declare p.name p.type p.pointer p.quals = .ok p ∧
    p.type.Made ∧ p.type.InScope s
  returns : t.returns.type.Made ∧ t.returns.type.InScope s

theorem Accepted.param (h : Accepted s t) : ∀ p ∈ t.params, Variable.Accepted s p := by
  intro p hp
  obtain ⟨hdeclared, hmade, hscope⟩ := h.params p hp
  exact ⟨hdeclared, hmade, hscope, (plain_of_declare h.declared).params p hp⟩

theorem Accepted.result (h : Accepted s t) : TypeUse.Accepted s t.returns :=
  ⟨h.returns.1, h.returns.2, (plain_of_declare h.declared).returns⟩

/-- The text of a typedef ends the result at its first parenthesis. -/
theorem typedefText_inj (ht : Accepted s t) (hu : Accepted s u) {name : String}
    (h : t.typedefText name = u.typedefText name) :
    t.returns.spelling = u.returns.spelling ∧ t.paramText = u.paramText := by
  -- no spelling of a result has a parenthesis, so the first one opens the pointer
  have hresult {t : Signature} (ht : Accepted s t) :
      '(' ∉ t.returns.spelling.toList ++ [' '] := by
    obtain ⟨q, hq, -, hfront, -⟩ := ht.result.exists_parts
    have hother := TypeParts.notMem_front hq (c := '(') rfl (by decide) (by decide)
    simp [hfront, hother]
  have hlists := congrArg String.toList h
  simp only [typedefText, String.toList_append, List.append_assoc, List.append_right_inj] at hlists
  have hsplit : (t.returns.spelling.toList ++ [' ']) ++ '(' :: ('*' :: (name.toList ++
        (")(".toList ++ (t.paramText.toList ++ ");".toList)))) =
      (u.returns.spelling.toList ++ [' ']) ++ '(' :: ('*' :: (name.toList ++
        (")(".toList ++ (u.paramText.toList ++ ");".toList)))) := by
    simpa using hlists
  obtain ⟨hspelling, hrest⟩ := append_cons_inj_left (hresult ht) (hresult hu) hsplit
  refine ⟨?_, ?_⟩
  · simpa [String.toList_inj] using hspelling
  · simpa [String.toList_inj] using hrest

/-- A list of parameters that is not empty is their declarations with commas between them. -/
theorem toList_paramText (h : t.params ≠ []) :
    t.paramText.toList = [',', ' '].intercalate (t.params.map fun p => p.text.toList) := by
  have hempty : t.params.isEmpty = false := by simpa using h
  rw [paramText, hempty, if_neg Bool.false_ne_true, String.toList_intercalate, List.map_map]
  rfl

/-- No list of parameters is written as the empty list is: a declaration has a space in it. -/
theorem paramText_ne_void (h : t.params ≠ []) : t.paramText ≠ "void" := by
  intro hvoid
  -- every parameter has a blank in front of its name
  have hspace : ' ' ∈ t.paramText.toList := by
    rw [toList_paramText h]
    obtain ⟨p, ps, hparams⟩ := List.exists_cons_of_ne_nil h
    have hfirst : ' ' ∈ p.text.toList := by simp [Variable.text]
    cases ps with
    | nil => simpa [hparams] using hfirst
    | cons q qs =>
      rw [hparams, List.map_cons, List.map_cons, List.intercalate_cons_cons]
      simp [hfirst]
  rw [hvoid] at hspace
  revert hspace
  decide

theorem map_text_eq (ht : Accepted s t) (hu : Accepted s u) (h : t.paramText = u.paramText) :
    t.params.map (·.text) = u.params.map (·.text) := by
  have hcomma {t : Signature} (ht : Accepted s t) :
      ∀ x ∈ t.params.map (fun p => p.text.toList), ',' ∉ x := by
    intro x hx
    obtain ⟨p, hp, rfl⟩ := List.mem_map.1 hx
    exact notMem_text (ht.param p hp) rfl (by decide)
  -- without parameters the text is `void`, which is no text of parameters
  by_cases ht0 : t.params = []
  · by_cases hu0 : u.params = []
    · rw [ht0, hu0]
    · have hvoid : t.paramText = "void" := by simp [paramText, ht0]
      exact absurd (h ▸ hvoid) (paramText_ne_void hu0)
  · by_cases hu0 : u.params = []
    · have hvoid : u.paramText = "void" := by simp [paramText, hu0]
      exact absurd (h.trans hvoid) (paramText_ne_void ht0)
    · -- no parameter has a comma in it, so the text is split at the commas in one way
      have hlists : t.params.map (fun p => p.text.toList) = u.params.map fun p => p.text.toList :=
        intercalate_inj (a := ',') (hcomma ht) (hcomma hu) (by simpa using ht0) (by simpa using hu0)
          (by rw [← toList_paramText ht0, h, toList_paramText hu0])
      have hstrings := congrArg (List.map String.ofList) hlists
      simpa [Function.comp_def] using hstrings

/-! ### What the typedef determines -/

theorem map_eq_of_map_text {β : Type} {f : Variable → β} {ps qs : List Variable}
    (hf : ∀ p ∈ ps, ∀ q ∈ qs, p.text = q.text → f p = f q)
    (h : ps.map (·.text) = qs.map (·.text)) : ps.map f = qs.map f := by
  induction ps generalizing qs with
  | nil => rw [List.map_eq_nil_iff.1 h.symm, List.map_nil]
  | cons p ps ih =>
    obtain ⟨q, qs, rfl⟩ := List.exists_cons_of_ne_nil (l := qs) (by rintro rfl; cases h)
    obtain ⟨hfirst, hrest⟩ := List.cons.inj h
    have hhead := hf p List.mem_cons_self q List.mem_cons_self hfirst
    have hfs : ∀ p ∈ ps, ∀ q ∈ qs, p.text = q.text → f p = f q := fun p hp q hq =>
      hf p (List.mem_cons_of_mem _ hp) q (List.mem_cons_of_mem _ hq)
    have htail := ih hfs hrest
    rw [List.map_cons, List.map_cons, hhead, htail]

theorem params_of_typedefText (hs : s.Clear) (ht : Accepted s t) (hu : Accepted s u) {name : String}
    (h : t.typedefText name = u.typedefText name) :
    t.params.map (·.name) = u.params.map (·.name) ∧
      t.params.map (·.key) = u.params.map (·.key) := by
  have htexts := map_text_eq ht hu (typedefText_inj ht hu h).2
  exact ⟨map_eq_of_map_text (fun p hp q hq => name_eq_of_text (ht.param p hp) (hu.param q hq)) htexts,
    map_eq_of_map_text (fun p hp q hq => key_eq_of_text hs (ht.param p hp) (hu.param q hq)) htexts⟩

theorem compatible_iff_unspelled (hs : s.Clear) (ht : Accepted s t) (hu : Accepted s u)
    {name : String} (h : t.typedefText name = u.typedefText name) :
    t.compatible u = true ↔ t.returns.unspelled = u.returns.unspelled := by
  have hparams := (params_of_typedefText hs ht hu h).2
  have hresult := ht.result.key_eq_iff hs hu.result (typedefText_inj ht hu h).1
  simp [compatible, keys, hparams, hresult]

/-- The signature with the elements for its result, where it returns an array. -/
theorem exists_of_isArray (hs : s.Clear) (ht : Accepted s t)
    (harray : t.returns.type.isArray = true) :
    ∃ u, Accepted s u ∧ (∀ name, t.typedefText name = u.typedefText name) ∧
      t.compatible u = false := by
  obtain ⟨hmade, hscope⟩ := ht.returns
  obtain ⟨hname, hparams, hstorage, hself, -⟩ := declare_eq_ok.1 ht.declared
  cases htype : t.returns.type with
  | primitive | pointer | struct | typedef =>
    rw [htype] at harray
    cases harray
  | array element length =>
    rw [htype] at hmade hscope
    -- the signature that returns an element in place of the array
    let u : Signature :=
      { name := t.name, params := t.params, returns := { t.returns with type := element },
        role := t.role }
    obtain ⟨helement, hflat⟩ := hmade.element
    have hu : Accepted s u :=
      ⟨declare_eq_ok.2 ⟨hname, hparams, hstorage, hself, rfl⟩, ht.params, helement, hscope⟩
    have htext (name : String) : t.typedefText name = u.typedefText name := by
      have hspelling : t.returns.spelling = u.returns.spelling := by
        simp only [TypeUse.spelling, htype]
        rfl
      simp only [typedefText, hspelling]
      rfl
    -- the spelling leaves out a length for the one signature and nothing for the other
    have htold : t.returns.unspelled = some (length, t.returns.pointer) := by
      rw [TypeUse.unspelled, htype]
      rfl
    have huold : u.returns.unspelled = none := by
      rw [TypeUse.unspelled, CType.length?_eq_none hflat, Option.map_none]
    refine ⟨u, hu, htext, ?_⟩
    rw [← Bool.not_eq_true, compatible_iff_unspelled hs ht hu (htext t.name), htold, huold]
    exact Option.some_ne_none _

/-- Two signatures that give the same typedef under one name have the same parameters in the same
places, names and types, and return the same type up to what the spelling of a result leaves out.
So they are compatible if neither returns an array. An array for a result is not refused, though,
and then the typedef is also that of a function which returns the elements, and is incompatible. -/
theorem compatible_iff_of_typedefText {s : Scope} (hs : s.Made) :
    (∀ t u : Signature, Accepted s t → Accepted s u → ∀ name,
      t.typedefText name = u.typedefText name →
        t.params.map (·.name) = u.params.map (·.name) ∧
        t.params.map (·.key) = u.params.map (·.key) ∧
        (t.compatible u = true ↔ t.returns.unspelled = u.returns.unspelled) ∧
        (t.returns.type.isArray = false → u.returns.type.isArray = false →
          t.compatible u = true)) ∧
    ∀ t : Signature, Accepted s t → t.returns.type.isArray = true →
      ∃ u, Accepted s u ∧ (∀ name, t.typedefText name = u.typedefText name) ∧
        t.compatible u = false := by
  refine ⟨fun t u ht hu name h => ?_, fun t ht harray => exists_of_isArray hs.clear ht harray⟩
  obtain ⟨hnames, hkeys⟩ := params_of_typedefText hs.clear ht hu h
  have hiff := compatible_iff_unspelled hs.clear ht hu h
  refine ⟨hnames, hkeys, hiff, fun htarray huarray => hiff.2 ?_⟩
  simp only [TypeUse.unspelled, CType.length?_eq_none htarray, CType.length?_eq_none huarray,
    Option.map_none]

namespace Sample

open Scope.Sample Variable.Sample

/-- The pointers to pointers of `rows`, with both levels in the type. -/
def rowsTogether : Variable :=
  { rows with type := .pointer (.struct "Cell") 2, pointer := false }

/-- A function of rows. -/
def sum (row : Variable) (result : CType) : Signature :=
  { name := "sum", params := [row], returns := { type := result }, role := .free }

/-- Four numbers at once. -/
def sums : CType :=
  .array .int (.count 4)

theorem made_sums : sums.Made := by
  have hfits : (ArrayLength.count 4).Fits := by
    unfold ArrayLength.Fits
    decide
  exact .array (.primitive .int) hfits rfl

theorem accepted_sum {row : Variable} {result : CType} (hrow : Variable.Accepted names row)
    (hresult : result.Made) (hscope : result.InScope names) (hstorable : row.isVoid = false) :
    Accepted names (sum row result) where
  declared := by
    have hname : isIdentifier "sum" = true := by decide
    have hparams : checkParams "sum" [] [row] = .ok () := by
      have hcheck : row.checkStorable "parameter" = .ok () :=
        Variable.checkStorable_eq_ok.2 ⟨hstorable, hrow.storage⟩
      simp [checkParams_eq_ok, hcheck]
    exact declare_eq_ok.2 ⟨hname, hparams, rfl, nofun, rfl⟩
  params := List.forall_mem_singleton.2 ⟨hrow.declared, hrow.made, hrow.inScope⟩
  returns := ⟨hresult, hscope⟩

theorem accepted_rowsTogether : Variable.Accepted names rowsTogether where
  declared := rfl
  made := made_cells (by decide) (by decide)
  inScope := List.mem_cons_self
  storage := rfl

end Sample

open Scope.Sample Variable.Sample Sample

theorem compatible_iff_of_typedefText_sample :
    names.Made ∧ Accepted names (sum rows .int) ∧ Accepted names (sum rowsTogether .int) ∧
      (sum rows .int).compatible (sum rowsTogether .int) = true ∧
      Accepted names (sum rows sums) ∧
      ∃ u, Accepted names u ∧ (sum rows sums).typedefText "sum_t" = u.typedefText "sum_t" ∧
        (sum rows sums).compatible u = false := by
  obtain ⟨hsame, harray⟩ := compatible_iff_of_typedefText made_names
  have hrows : Accepted names (sum rows .int) :=
    accepted_sum accepted_rows (.primitive .int) trivial rfl
  have htogether : Accepted names (sum rowsTogether .int) :=
    accepted_sum accepted_rowsTogether (.primitive .int) trivial rfl
  have hsums : Accepted names (sum rows sums) := accepted_sum accepted_rows made_sums trivial rfl
  have htext : (sum rows .int).typedefText "sum_t" = (sum rowsTogether .int).typedefText "sum_t" :=
    rfl
  obtain ⟨-, -, -, hcompatible⟩ := hsame _ _ hrows htogether "sum_t" htext
  obtain ⟨u, hu, hutext, hincompatible⟩ := harray _ hsums rfl
  exact ⟨made_names, hrows, htogether, hcompatible rfl rfl, hsums, u, hu, hutext "sum_t",
    hincompatible⟩

/-- A sum and four of them have the same typedef, but they are not compatible. -/
theorem sums_typed_like_sum :
    names.Made ∧ Accepted names (sum rows sums) ∧ Accepted names (sum rows .int) ∧
      (sum rows sums).typedefText "sum_t" = (sum rows .int).typedefText "sum_t" ∧
      (sum rows sums).compatible (sum rows .int) = false :=
  ⟨made_names, accepted_sum accepted_rows made_sums trivial rfl,
    accepted_sum accepted_rows (.primitive .int) trivial rfl, rfl, rfl⟩

end Signature

end ClassForge.C

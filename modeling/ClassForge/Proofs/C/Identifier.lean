import ClassForge.C.Identifier
import ClassForge.Proofs.Except
import ClassForge.Proofs.Text.Words

/-!
# What stands in an identifier

Every character of an identifier is an ASCII letter, a digit or an underscore. So no blank and no
punctuation stands in one, and the first character is no digit.
-/

namespace ClassForge.C

/-! ### Characters by their numbers -/

theorem isNameStart_iff {c : Char} : isNameStart c = true ↔
    c.toNat = 95 ∨ (65 ≤ c.toNat ∧ c.toNat ≤ 90) ∨ 97 ≤ c.toNat ∧ c.toNat ≤ 122 := by
  have hupper : c.isUpper = true ↔ 65 ≤ c.toNat ∧ c.toNat ≤ 90 := decide_eq_true_iff
  have hlower : c.isLower = true ↔ 97 ≤ c.toNat ∧ c.toNat ≤ 122 := by
    have h : c.isLower = (decide ('a'.val ≤ c.val) && decide (c.val ≤ 'z'.val)) := rfl
    rw [h, Bool.and_eq_true, decide_eq_true_eq, decide_eq_true_eq, UInt32.le_iff_toNat_le,
      UInt32.le_iff_toNat_le]
    exact Iff.rfl
  have halpha : c.isAlpha = (c.isUpper || c.isLower) := rfl
  -- an underscore or a letter of either case, by code point
  rw [isNameStart, halpha, Bool.or_eq_true, Bool.or_eq_true, hupper, hlower, beq_iff_eq,
    ← Char.toNat_inj]
  exact Iff.rfl

theorem isDigit_iff {c : Char} : c.isDigit = true ↔ 48 ≤ c.toNat ∧ c.toNat ≤ 57 :=
  Char.isDigit_iff_toNat

theorem isNameChar_iff {c : Char} : isNameChar c = true ↔
    isNameStart c = true ∨ 48 ≤ c.toNat ∧ c.toNat ≤ 57 := by
  have halphanum : c.isAlphanum = (c.isAlpha || c.isDigit) := rfl
  rw [isNameChar, isNameStart, halphanum, ← Bool.or_assoc, Bool.or_eq_true, isDigit_iff]

theorem isNameChar_of_isNameStart {c : Char} (h : isNameStart c = true) : isNameChar c = true :=
  isNameChar_iff.2 (.inl h)

theorem isNameChar_of_isDigit {c : Char} (h : c.isDigit = true) : isNameChar c = true :=
  isNameChar_iff.2 (.inr (isDigit_iff.1 h))

/-- No identifier starts with a digit. -/
theorem isDigit_of_isNameStart {c : Char} (h : isNameStart c = true) : c.isDigit = false := by
  rw [← Bool.not_eq_true, isDigit_iff]
  rw [isNameStart_iff] at h
  omega

theorem toNat_lt_of_isNameChar {c : Char} (h : isNameChar c = true) : c.toNat < 128 := by
  rw [isNameChar_iff, isNameStart_iff] at h
  omega

theorem isBlank_of_isNameChar {c : Char} (h : isNameChar c = true) : Text.isBlank c = false := by
  rw [isNameChar_iff, isNameStart_iff] at h
  rw [← Bool.not_eq_true]
  simp only [Text.isBlank, Bool.or_eq_true, Bool.and_eq_true, beq_iff_eq, decide_eq_true_eq]
  omega

/-! ### Identifiers -/

/-- An identifier is a letter or an underscore with more characters behind. -/
theorem exists_cons_of_isIdentifier {name : String} (h : isIdentifier name = true) :
    ∃ c cs, name.toList = c :: cs ∧ isNameStart c = true ∧ ∀ d ∈ cs, isNameChar d = true := by
  unfold isIdentifier at h
  cases hname : name.toList with
  | nil =>
    rw [hname] at h
    cases h
  | cons c cs =>
    rw [hname, isIdentifierChars, Bool.and_eq_true, List.all_eq_true] at h
    exact ⟨c, cs, rfl, h⟩

theorem isNameChar_of_mem {name : String} (h : isIdentifier name = true) {c : Char}
    (hc : c ∈ name.toList) : isNameChar c = true := by
  obtain ⟨d, ds, hname, hstart, hchars⟩ := exists_cons_of_isIdentifier h
  rw [hname] at hc
  rcases List.mem_cons.1 hc with rfl | hc
  · exact isNameChar_of_isNameStart hstart
  · exact hchars c hc

/-- An identifier has no character that cannot stand in one. -/
theorem notMem_of_isIdentifier {name : String} {c : Char} (h : isIdentifier name = true)
    (hc : isNameChar c = false) : c ∉ name.toList := by
  intro hmem
  rw [isNameChar_of_mem h hmem] at hc
  cases hc

theorem trim_eq_of_isNameChar {cs : List Char} (h : ∀ c ∈ cs, isNameChar c = true) :
    Text.trim cs = cs :=
  Text.trim_eq_self (fun c hc => isBlank_of_isNameChar (h c (List.mem_of_mem_head? hc)))
    (fun c hc => isBlank_of_isNameChar (h c (List.mem_of_getLast? hc)))

/-- An identifier ends in a character that can stand in one. -/
theorem exists_reverse_of_isIdentifier {name : String} (h : isIdentifier name = true) :
    ∃ c cs, name.toList.reverse = c :: cs ∧ isNameChar c = true := by
  cases hname : name.toList.reverse with
  | nil =>
    obtain ⟨c, cs, hcons, -⟩ := exists_cons_of_isIdentifier h
    rw [List.reverse_eq_nil_iff.1 hname] at hcons
    cases hcons
  | cons c cs =>
    refine ⟨c, cs, rfl, isNameChar_of_mem h (List.mem_reverse.1 ?_)⟩
    rw [hname]
    exact List.mem_cons_self

/-- Characters that can stand in an identifier can stand behind one. -/
theorem isIdentifier_append {a b : String} (ha : isIdentifier a = true)
    (hb : b.toList.all isNameChar = true) : isIdentifier (a ++ b) = true := by
  obtain ⟨c, cs, hcons, hstart, hchars⟩ := exists_cons_of_isIdentifier ha
  rw [isIdentifier, String.toList_append, hcons, List.cons_append, isIdentifierChars, hstart,
    Bool.true_and, List.all_append, hb, Bool.and_true]
  exact List.all_eq_true.2 hchars

theorem isIdentifier_prefixed {text name : String} (htext : isIdentifier text = true)
    (hname : isIdentifier name = true) : isIdentifier (text ++ name) = true :=
  isIdentifier_append htext (List.all_eq_true.2 fun _ => isNameChar_of_mem hname)

/-! ### Checks -/

theorem checkName_eq_ok {role : NameRole} {name : String} :
    checkName role name = .ok () ↔ isIdentifier name = true := by
  unfold checkName
  split <;> simp_all

theorem checkName_eq_error {role : NameRole} {name : String} {e : TypeError} :
    checkName role name = .error e ↔ isIdentifier name = false ∧ e = .badName role name := by
  unfold checkName
  by_cases hname : isIdentifier name = true
  · simp [hname]
  · simp [hname, eq_comm (a := TypeError.badName role name)]

/-- What is done under a checked name is done when the name is an identifier. -/
theorem checkName_bind_eq_ok {α : Type} {role : NameRole} {name : String}
    {x : Except TypeError α} {a : α} :
    (checkName role name >>= fun _ => x) = .ok a ↔ isIdentifier name = true ∧ x = .ok a := by
  rw [check_bind_eq_ok, checkName_eq_ok]

end ClassForge.C

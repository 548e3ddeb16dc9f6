import ClassForge.C.Signature
import ClassForge.Proofs.C.Identifier
import ClassForge.Proofs.C.Struct

/-!
# Signatures that can be made

A signature is checked when it is declared, and again when it gets another name or a parameter in
front. What these checks ensure holds of every signature that can be made.
-/

namespace ClassForge.C

/-- What can be stored: anything but `void` by value, without a storage class. -/
theorem Variable.checkStorable_eq_ok {v : Variable} {place : String} :
    v.checkStorable place = .ok () ↔ v.isVoid = false ∧ v.quals.storage = none := by
  unfold checkStorable
  cases v.isVoid <;> cases v.quals.storage <;> simp

theorem Variable.storage_of_checkStorable {v : Variable} {place : String}
    (h : v.checkStorable place = .ok ()) : v.quals.storage = none :=
  (checkStorable_eq_ok.1 h).2

/-- Why a variable is refused: `void` by value is reported before a storage class. -/
theorem Variable.checkStorable_eq_error {v : Variable} {place : String} {e : TypeError} :
    v.checkStorable place = .error e ↔
      v.isVoid = true ∧ e = .voidVariable place v.name ∨
        v.isVoid = false ∧ v.quals.storage.isSome = true ∧ e = .storageOnVariable place v.name := by
  unfold checkStorable
  cases v.isVoid <;> cases v.quals.storage <;> simp [eq_comm]

namespace Signature

/-- A signature that can be made: it is declared, and after that gets another name, a storage class
or a parameter in front. -/
inductive Made : Signature → Prop
  | declare {name : String} {params : List Variable} {returns : TypeUse} {role : Role}
    {s : Signature} (h : declare name params returns role = .ok s) : Made s
  | qualify {s t : Signature} {quals : Qualifiers} (hs : Made s) (h : s.qualify quals = .ok t) :
    Made t
  | rename {s t : Signature} {name : String} {role : Role} (hs : Made s)
    (h : s.rename name role = .ok t) : Made t
  | withLeading {s t : Signature} {param : Variable} (hs : Made s)
    (h : s.withLeading param = .ok t) : Made t

/-- Neither a parameter nor the return type has a storage class. -/
structure Plain (s : Signature) : Prop where
  params : ∀ p ∈ s.params, p.quals.storage = none
  returns : s.returns.quals.storage = none

/-- Parameters pass when each can be stored and their names are all different, also from those in
front. -/
theorem checkParams_eq_ok {function : String} {earlier : List String} {params : List Variable} :
    checkParams function earlier params = .ok () ↔
      (∀ p ∈ params, p.checkStorable "parameter" = .ok () ∧ p.name ∉ earlier) ∧
        (params.map (·.name)).Nodup := by
  induction params generalizing earlier with
  | nil => simp [checkParams]
  | cons p ps ih =>
    rw [checkParams, check_bind_eq_ok, List.forall_mem_cons, List.map_cons, List.nodup_cons]
    by_cases hearlier : p.name ∈ earlier
    · simp only [hearlier, if_true, not_true_eq_false, and_false, false_and, iff_false]
      exact fun h => throw_bind_ne_ok h.2
    · simp only [hearlier, if_false, not_false_eq_true, and_true, ih, List.mem_append,
        List.mem_singleton, not_or, List.mem_map, not_exists, not_and]
      constructor
      · rintro ⟨hp, hps, hnodup⟩
        exact ⟨⟨hp, fun q hq => ⟨(hps q hq).1, (hps q hq).2.1⟩⟩, fun q hq => (hps q hq).2.2, hnodup⟩
      · rintro ⟨⟨hp, hps⟩, hfresh, hnodup⟩
        exact ⟨hp, fun q hq => ⟨(hps q hq).1, (hps q hq).2, hfresh q hq⟩, hnodup⟩

/-- What is checked when a signature is declared. -/
theorem declare_eq_ok {name : String} {params : List Variable} {returns : TypeUse} {role : Role}
    {s : Signature} : declare name params returns role = .ok s ↔
      isIdentifier name = true ∧ checkParams name [] params = .ok () ∧
        returns.quals.storage = none ∧ (role = .method → s.self?.isSome = true) ∧
        s = { name, params, returns, role } := by
  constructor
  · intro h
    obtain ⟨hname, h⟩ := check_bind_eq_ok.1 h
    obtain ⟨hparams, h⟩ := check_bind_eq_ok.1 h
    split at h
    next => exact absurd h throw_bind_ne_ok
    next hreturns =>
      dsimp only at h
      split at h
      next => exact absurd h throw_bind_ne_ok
      next hself =>
        obtain rfl := pure_eq_ok.1 h
        exact ⟨checkName_eq_ok.1 hname, hparams, by simpa using hreturns,
          by simpa [Option.isSome_iff_ne_none] using hself, rfl⟩
  · rintro ⟨hname, hparams, hreturns, hself, rfl⟩
    have hcheck : (decide (role = .method)
        && ({ name, params, returns, role } : Signature).self?.isNone) = false := by
      simpa [Option.isSome_iff_ne_none] using hself
    rw [declare, checkName_eq_ok.2 hname, hparams]
    simp only [hreturns, hcheck]
    rfl

theorem declare_ok {name : String} {params : List Variable} {returns : TypeUse} {role : Role}
    {s : Signature} (h : declare name params returns role = .ok s) :
    isIdentifier name = true ∧ checkParams name [] params = .ok () ∧
      returns.quals.storage = none ∧ s = { name, params, returns, role } := by
  obtain ⟨hname, hparams, hreturns, -, heq⟩ := declare_eq_ok.1 h
  exact ⟨hname, hparams, hreturns, heq⟩

theorem plain_of_declare {name : String} {params : List Variable} {returns : TypeUse} {role : Role}
    {s : Signature} (h : declare name params returns role = .ok s) : s.Plain := by
  obtain ⟨-, hparams, hreturns, rfl⟩ := declare_ok h
  have hstorable := (checkParams_eq_ok.1 hparams).1
  exact ⟨fun p hp => Variable.storage_of_checkStorable (hstorable p hp).1, hreturns⟩

/-- Qualifying a signature changes its storage class alone. -/
theorem qualify_ok {s t : Signature} {quals : Qualifiers} (h : s.qualify quals = .ok t) :
    t = { s with storage := t.storage } := by
  unfold qualify at h
  split at h
  next => cases h
  next =>
    split at h
    next =>
      cases h
      rfl
    next => cases h

theorem Made.plain {s : Signature} (h : s.Made) : s.Plain := by
  induction h with
  | declare h => exact plain_of_declare h
  | qualify _ h ih =>
    rw [qualify_ok h]
    exact ⟨ih.params, ih.returns⟩
  | rename _ h ih =>
    obtain ⟨_, -, h⟩ := bind_eq_ok.1 h
    obtain rfl := pure_eq_ok.1 h
    exact ⟨ih.params, ih.returns⟩
  | withLeading _ h _ =>
    obtain ⟨_, hdeclare, h⟩ := bind_eq_ok.1 h
    obtain rfl := pure_eq_ok.1 h
    have hplain := plain_of_declare hdeclare
    exact ⟨hplain.params, hplain.returns⟩

/-- The parameters of a signature that can be made pass their check again, whatever function they
are checked for. -/
theorem Made.checkParams_eq {s : Signature} (h : s.Made) (function : String) :
    checkParams function [] s.params = .ok () := by
  -- the function's name is there for the messages only
  have hagain {first : String} {params : List Variable}
      (hparams : checkParams first [] params = .ok ()) : checkParams function [] params = .ok () :=
    checkParams_eq_ok.2 (checkParams_eq_ok.1 hparams)
  induction h with
  | declare h =>
    obtain ⟨-, hparams, -, rfl⟩ := declare_ok h
    exact hagain hparams
  | qualify _ h ih =>
    rw [qualify_ok h]
    exact ih
  | rename _ h ih =>
    obtain ⟨_, -, h⟩ := bind_eq_ok.1 h
    obtain rfl := pure_eq_ok.1 h
    exact ih
  | withLeading _ h _ =>
    obtain ⟨_, hdeclare, h⟩ := bind_eq_ok.1 h
    obtain rfl := pure_eq_ok.1 h
    obtain ⟨-, hparams, -, rfl⟩ := declare_ok hdeclare
    exact hagain hparams

/-- A signature that can be made has a C identifier for its name. -/
theorem Made.isIdentifier {s : Signature} (h : s.Made) : isIdentifier s.name = true := by
  induction h with
  | declare h =>
    obtain ⟨hname, -, -, rfl⟩ := declare_ok h
    exact hname
  | qualify _ h ih =>
    rw [qualify_ok h]
    exact ih
  | rename _ h _ =>
    obtain ⟨⟨⟩, hname, h⟩ := bind_eq_ok.1 h
    obtain rfl := pure_eq_ok.1 h
    exact checkName_eq_ok.1 hname
  | withLeading _ h ih =>
    obtain ⟨_, hdeclare, h⟩ := bind_eq_ok.1 h
    obtain rfl := pure_eq_ok.1 h
    obtain ⟨-, -, -, rfl⟩ := declare_ok hdeclare
    exact ih

end Signature

end ClassForge.C

import ClassForge.Module.Owners
import ClassForge.Proofs.Keyed
import Mathlib.Data.List.Basic

/-!
# Owners of entry points

Claims on names succeed together just when no two classes claim one name, and then each name has the
class that claimed it as its owner. Where they fail, the fault names two classes that both claim the
name, or the one that owned it before.
-/

namespace ClassForge.Module

namespace Owners

variable {o o' : Owners} {cls : String} {names : List String}
  {claims : List (String × List String)}

/-- Among claims is one of a class on a name. -/
def Claimed (claims : List (String × List String)) (name cls : String) : Prop :=
  ∃ names, (cls, names) ∈ claims ∧ name ∈ names

theorem claimed_cons {name c : String} :
    Claimed ((cls, names) :: claims) name c ↔ (name ∈ names ∧ c = cls) ∨ Claimed claims name c := by
  simp only [Claimed, List.mem_cons, Prod.mk.injEq]
  constructor
  · rintro ⟨names', ⟨rfl, rfl⟩ | hmem, hname⟩
    · exact .inl ⟨hname, rfl⟩
    · exact .inr ⟨names', hmem, hname⟩
  · rintro (⟨hname, rfl⟩ | ⟨names', hmem, hname⟩)
    · exact ⟨names, .inl ⟨rfl, rfl⟩, hname⟩
    · exact ⟨names', .inr hmem, hname⟩

/-- The names in use are those with an owner. -/
theorem mem_names {name : String} : name ∈ o.names ↔ ∃ c, o.owner? name = some c := by
  cases howner : o.owner? name with
  | none =>
    simp only [reduceCtorEq, exists_false, iff_false]
    exact lookup_eq_none_iff_notMem.1 howner
  | some c =>
    obtain ⟨l₁, l₂, hsplit, -⟩ := List.lookup_eq_some_iff.1 howner
    simp [names, hsplit]

/-- A name without an owner gets one. -/
theorem owner?_append {name n c : String} (hnone : o.owner? name = none) :
    (⟨o.entries ++ [(name, cls)]⟩ : Owners).owner? n = some c ↔
      o.owner? n = some c ∨ (n = name ∧ c = cls) := by
  unfold owner? at *
  rw [List.lookup_append, Option.or_eq_some_iff]
  by_cases hn : n = name
  · subst hn
    simp [hnone, eq_comm]
  · simp [hn]

/-- Names that a class claims without a fault are its own, and the others keep their owners. -/
theorem claim_ok (h : o.claim cls names = (.ok (), o')) (n c : String) :
    o'.owner? n = some c ↔ o.owner? n = some c ∨ (n ∈ names ∧ c = cls) := by
  fun_induction claim o cls names with
  | case1 o =>
    cases h
    simp
  | case2 o name names hown ih =>
    -- the class owns the name already
    rw [ih h, List.mem_cons, or_and_right]
    refine ⟨Or.imp_right .inr, ?_⟩
    rintro (hold | ⟨rfl, rfl⟩ | hnew)
    · exact .inl hold
    · exact .inl hown
    · exact .inr hnew
  | case3 => cases h
  | case4 o name names hnone ih =>
    rw [ih h, owner?_append hnone, List.mem_cons, or_and_right, or_assoc]

/-- A fault names the first name that another class owns, and that class. -/
theorem claim_error {e : ModelError} (h : o.claim cls names = (.error e, o')) :
    ∃ n ∈ names, ∃ owner, o.owner? n = some owner ∧ owner ≠ cls ∧
      e = .delegatorClash n owner cls := by
  fun_induction claim o cls names with
  | case1 o => cases h
  | case2 o name names hown ih =>
    obtain ⟨n, hn, hfault⟩ := ih h
    exact ⟨n, List.mem_cons_of_mem _ hn, hfault⟩
  | case3 o name names owner hown hne =>
    cases h
    exact ⟨name, List.mem_cons_self, owner, hown, hne, rfl⟩
  | case4 o name names hnone ih =>
    obtain ⟨n, hn, owner, hown, hne, rfl⟩ := ih h
    refine ⟨n, List.mem_cons_of_mem _ hn, owner, ?_, hne, rfl⟩
    exact ((owner?_append hnone).1 hown).resolve_right fun hnew => hne hnew.2

/-- Where no claim of several classes fails, the owners are those that there were and those that
claimed a name. -/
theorem claimAll_ok (h : o.claimAll claims = .ok o') (n c : String) :
    o'.owner? n = some c ↔ o.owner? n = some c ∨ Claimed claims n c := by
  fun_induction claimAll o claims with
  | case1 o =>
    cases h
    simp [Claimed]
  | case2 => cases h
  | case3 o cls names rest _ o₁ hclaim ih =>
    rw [ih h, claim_ok hclaim, claimed_cons, or_assoc]

/-- Where a claim of several classes fails, the fault names two classes that both claim a name, the
first of which may have owned it before. -/
theorem claimAll_error {e : ModelError} (h : o.claimAll claims = .error e) :
    ∃ n first second, e = .delegatorClash n first second ∧ first ≠ second ∧
      (o.owner? n = some first ∨ Claimed claims n first) ∧ Claimed claims n second := by
  fun_induction claimAll o claims with
  | case1 o => cases h
  | case2 o cls names rest e o₁ hclaim =>
    cases h
    obtain ⟨n, hn, owner, hown, hne, rfl⟩ := claim_error hclaim
    exact ⟨n, owner, cls, rfl, hne, .inl hown, claimed_cons.2 (.inl ⟨hn, rfl⟩)⟩
  | case3 o cls names rest _ o₁ hclaim ih =>
    obtain ⟨n, first, second, rfl, hne, hfirst, hsecond⟩ := ih h
    refine ⟨n, first, second, rfl, hne, ?_, claimed_cons.2 (.inr hsecond)⟩
    rwa [claim_ok hclaim, or_assoc, ← claimed_cons] at hfirst

end Owners

end ClassForge.Module

import Mathlib.Data.List.Basic

/-!
# Histories with refusals

Steps on a state that come one after the other, each with an outcome, whatever became of those in
front. Where a refused step leaves the state as it was, refused steps can be taken out of a history.
Where a step sees a part of the state alone, steps that do not touch that part can be taken out.
-/

namespace ClassForge.History

variable {σ ι ε α : Type} (step : σ → ι → Except ε α × σ)

/-- What becomes of each of several steps. -/
def outcomes (s : σ) : List ι → List (ι × Except ε α)
  | [] => []
  | i :: is => (i, (step s i).1) :: outcomes (step s i).2 is

/-- The state behind several steps. -/
def after (s : σ) (is : List ι) : σ :=
  is.foldl (fun s i => (step s i).2) s

/-- A refused step leaves the state as it was. -/
def Reverts : Prop :=
  ∀ s i e, (step s i).1 = .error e → (step s i).2 = s

variable {step}

theorem outcomes_cons (s : σ) (i : ι) (is : List ι) :
    outcomes step s (i :: is) = (i, (step s i).1) :: outcomes step (step s i).2 is := rfl

@[simp] theorem after_nil (s : σ) : after step s [] = s := rfl

@[simp] theorem after_cons (s : σ) (i : ι) (is : List ι) :
    after step s (i :: is) = after step (step s i).2 is := rfl

theorem after_append (s : σ) (is js : List ι) :
    after step s (is ++ js) = after step (after step s is) js :=
  List.foldl_append

/-- What holds of the state in front and of no outcomes, and is kept by each step with its outcome,
holds behind all of them. -/
theorem outcomes_induct {P : List (ι × Except ε α) → σ → Prop}
    (hstep : ∀ log s i, P log s → P (log ++ [(i, (step s i).1)]) (step s i).2) {s : σ} (hs : P [] s)
    (is : List ι) : P (outcomes step s is) (after step s is) := by
  have hfrom : ∀ log s, P log s → P (log ++ outcomes step s is) (after step s is) := by
    induction is with
    | nil => simp [outcomes]
    | cons i is ih =>
      intro log s hs
      have hrest := ih _ _ (hstep log s i hs)
      rwa [List.append_assoc, List.singleton_append] at hrest
  exact hfrom [] s hs

/-- What each step keeps holds behind all of them. -/
theorem after_induct {P : σ → Prop} (hstep : ∀ s i, P s → P (step s i).2) {s : σ} (hs : P s)
    (is : List ι) : P (after step s is) :=
  outcomes_induct (P := fun _ => P) (fun _ => hstep) hs is

/-- Any of the refused steps can be taken out, and nothing changes for the others. -/
theorem outcomes_of_kept (hstep : Reverts step) {s : σ} {is : List ι}
    {kept : List (ι × Except ε α)} (hsub : kept.Sublist (outcomes step s is))
    (hok : kept.filter (·.2.isOk) = (outcomes step s is).filter (·.2.isOk)) :
    outcomes step s (kept.map (·.1)) = kept ∧ after step s (kept.map (·.1)) = after step s is := by
  induction is generalizing s kept with
  | nil =>
    obtain rfl := List.sublist_nil.1 hsub
    exact ⟨rfl, rfl⟩
  | cons i is ih =>
    rw [outcomes] at hsub hok
    rw [after_cons]
    cases hsub with
    | cons _ hsub =>
      cases houtcome : (step s i).1 with
      | error e =>
        rw [houtcome] at hok
        rw [hstep s i e houtcome] at hsub hok ⊢
        exact ih hsub hok
      | ok a =>
        -- a step that succeeded is among those that are kept
        have hlength := (hsub.filter (·.2.isOk)).length_le
        rw [hok, houtcome, List.filter_cons_of_pos rfl, List.length_cons] at hlength
        omega
    | @cons_cons kept _ _ hsub =>
      have hrest : kept.filter (·.2.isOk) =
          (outcomes step (step s i).2 is).filter (·.2.isOk) := by
        cases houtcome : (step s i).1 with
        | error e =>
          rw [houtcome] at hok
          exact hok
        | ok a =>
          rw [houtcome] at hok
          exact (List.cons.inj hok).2
      obtain ⟨hkept, hlast⟩ := ih hsub hrest
      rw [List.map_cons, outcomes, after_cons, hkept]
      exact ⟨rfl, hlast⟩

/-- Steps can be taken out that leave alone all that the others see of the state. -/
theorem outcomes_filter {τ : Type} (view : σ → τ) {p : ι → Bool}
    (hseen : ∀ s s' i, p i = true → view s = view s' →
      (step s i).1 = (step s' i).1 ∧ view (step s i).2 = view (step s' i).2)
    (hunseen : ∀ s i, p i = false → view (step s i).2 = view s) {s s' : σ}
    (hview : view s = view s') (is : List ι) :
    outcomes step s (is.filter p) = (outcomes step s' is).filter (p ·.1) := by
  induction is generalizing s s' with
  | nil => rfl
  | cons i is ih =>
    rw [outcomes]
    cases hp : p i with
    | true =>
      obtain ⟨hfst, hsnd⟩ := hseen s s' i hp hview
      simp only [List.filter_cons, hp, if_true, outcomes, hfst, ih hsnd]
    | false =>
      simp only [List.filter_cons, hp, Bool.false_eq_true, if_false]
      exact ih (hview.trans (hunseen s' i hp).symm)

end ClassForge.History

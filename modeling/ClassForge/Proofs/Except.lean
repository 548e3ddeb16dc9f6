import ClassForge.Class.Error

/-!
# Computations that succeed

What it says of its steps that a computation gave a result. Every inversion of a function that can
fail starts from these.
-/

namespace ClassForge

variable {ε α β : Type}

/-- A sequence of two steps succeeds when the second does on the result of the first. -/
theorem bind_eq_ok {x : Except ε α} {f : α → Except ε β} {b : β} :
    (x >>= f) = .ok b ↔ ∃ a, x = .ok a ∧ f a = .ok b := by
  cases x <;> simp [bind, Except.bind]

/-- A check in front of a step passes nothing on. -/
theorem check_bind_eq_ok {x : Except ε Unit} {y : Except ε β} {b : β} :
    (x >>= fun _ => y) = .ok b ↔ x = .ok () ∧ y = .ok b := by
  cases x <;> simp [bind, Except.bind]

/-- A sequence of two steps gives a result when both do, whatever it is. -/
theorem exists_bind_eq_ok {x : Except ε α} {f : α → Except ε β} :
    (∃ b, (x >>= f) = .ok b) ↔ ∃ a, x = .ok a ∧ ∃ b, f a = .ok b := by
  simp only [bind_eq_ok]
  exact exists_comm.trans (exists_congr fun a => exists_and_left)

/-- What is done with a result in the end does not decide whether there is one. -/
theorem exists_bind_pure_eq_ok {x : Except ε α} {g : α → β} :
    (∃ b, (x >>= fun a => pure (g a)) = .ok b) ↔ ∃ a, x = .ok a := by
  cases x <;> simp [bind, Except.bind, pure, Except.pure]

/-- A sequence of two steps fails where the first does, or the second on the result of the first. -/
theorem bind_eq_error {x : Except ε α} {f : α → Except ε β} {e : ε} :
    (x >>= f) = .error e ↔ x = .error e ∨ ∃ a, x = .ok a ∧ f a = .error e := by
  cases x <;> simp [bind, Except.bind]

theorem map_eq_ok {x : Except ε α} {f : α → β} {b : β} :
    f <$> x = .ok b ↔ ∃ a, x = .ok a ∧ f a = b := by
  cases x <;> simp [Functor.map, Except.map]

/-- Nothing comes behind a fault. -/
theorem throw_bind_ne_ok {e : ε} {f : α → Except ε β} {b : β} :
    ((throw e : Except ε α) >>= f) ≠ .ok b := by
  simp [bind, Except.bind, throw, throwThe, MonadExceptOf.throw]

theorem throw_bind_eq_error {e e' : ε} {f : α → Except ε β} :
    ((throw e : Except ε α) >>= f) = .error e' ↔ e' = e := by
  simp [bind, Except.bind, throw, throwThe, MonadExceptOf.throw, eq_comm]

theorem pure_eq_ok {a b : α} : (pure a : Except ε α) = .ok b ↔ a = b := by
  simp [pure, Except.pure]

theorem ModelError.ofType_eq_ok {x : Except C.TypeError α} {a : α} :
    ModelError.ofType x = .ok a ↔ x = .ok a := by
  cases x <;> simp [ModelError.ofType]

theorem ModelError.ofType_eq_error {x : Except C.TypeError α} {e : ModelError} :
    ModelError.ofType x = .error e ↔ ∃ e', x = .error e' ∧ e = .type e' := by
  cases x <;> simp [ModelError.ofType, eq_comm]

theorem isSome_toOption {x : Except ε α} : x.toOption.isSome = true ↔ ∃ a, x = .ok a := by
  cases x <;> simp [Except.toOption]

/-- A computation that can be run gives the result that it is seen to give. -/
theorem exists_of_any_toOption {x : Except ε α} {P : α → Prop} [DecidablePred P]
    (h : (x.toOption.any fun a => decide (P a)) = true) : ∃ a, x = .ok a ∧ P a := by
  cases x with
  | error e => cases h
  | ok a => exact ⟨a, rfl, of_decide_eq_true h⟩

end ClassForge

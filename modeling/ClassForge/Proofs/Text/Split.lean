import Mathlib.Data.List.Basic

/-!
# Texts split at a character

A text can be cut where a character first stands in it, or where it last does, and both sides of the
cut are then told from the whole. So are the pieces of a text that were put together with a
separator between them, if no piece has the character that the separator begins with.
-/

namespace ClassForge

variable {α : Type} {a : α}

/-- What stands in front of the first place of an element, and what stands behind. -/
theorem append_cons_inj_left {x x' z z' : List α} (hx : a ∉ x) (hx' : a ∉ x')
    (h : x ++ a :: z = x' ++ a :: z') : x = x' ∧ z = z' := by
  induction x generalizing x' with
  | nil =>
    cases x' with
    | nil => exact ⟨rfl, (List.cons.inj h).2⟩
    | cons b x' => exact absurd ((List.cons.inj h).1 ▸ List.mem_cons_self) hx'
  | cons b x ih =>
    cases x' with
    | nil => exact absurd ((List.cons.inj h).1 ▸ List.mem_cons_self) hx
    | cons b' x' =>
      obtain ⟨rfl, hrest⟩ := List.cons.inj h
      obtain ⟨rfl, rfl⟩ :=
        ih (List.not_mem_of_not_mem_cons hx) (List.not_mem_of_not_mem_cons hx') hrest
      exact ⟨rfl, rfl⟩

/-- What stands behind the last place of an element, and what stands in front. -/
theorem append_cons_inj_right {x x' z z' : List α} (hz : a ∉ z) (hz' : a ∉ z')
    (h : x ++ a :: z = x' ++ a :: z') : x = x' ∧ z = z' := by
  have hreverse : z.reverse ++ a :: x.reverse = z'.reverse ++ a :: x'.reverse := by
    simpa using congrArg List.reverse h
  have heq := append_cons_inj_left (by simpa using hz) (by simpa using hz') hreverse
  exact ⟨List.reverse_inj.1 heq.2, List.reverse_inj.1 heq.1⟩

/-- Pieces are told from the text that has a separator between them. -/
theorem intercalate_inj {gap : List α} {xs ys : List (List α)} (hxs : ∀ x ∈ xs, a ∉ x)
    (hys : ∀ y ∈ ys, a ∉ y) (hx : xs ≠ []) (hy : ys ≠ [])
    (h : (a :: gap).intercalate xs = (a :: gap).intercalate ys) : xs = ys := by
  induction xs generalizing ys with
  | nil => exact absurd rfl hx
  | cons x xs ih =>
    obtain ⟨y, ys, rfl⟩ := List.exists_cons_of_ne_nil hy
    have hax := hxs x List.mem_cons_self
    have hay := hys y List.mem_cons_self
    cases xs with
    | nil =>
      cases ys with
      | nil => simpa using h
      | cons y' ys =>
        -- a single piece has no separator in it
        rw [List.intercalate_singleton, List.intercalate_cons_cons] at h
        exact absurd (h ▸ by simp) hax
    | cons x' xs =>
      cases ys with
      | nil =>
        rw [List.intercalate_singleton, List.intercalate_cons_cons] at h
        exact absurd (h ▸ by simp) hay
      | cons y' ys =>
        rw [List.intercalate_cons_cons, List.intercalate_cons_cons, List.append_assoc,
          List.append_assoc, List.cons_append, List.cons_append] at h
        obtain ⟨rfl, hrest⟩ := append_cons_inj_left hax hay h
        rw [ih (fun x hx => hxs x (List.mem_cons_of_mem _ hx))
          (fun y hy => hys y (List.mem_cons_of_mem _ hy)) (List.cons_ne_nil x' xs)
          (List.cons_ne_nil y' ys) (List.append_cancel_left hrest)]

end ClassForge

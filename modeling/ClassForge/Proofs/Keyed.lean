import Mathlib.Data.List.Nodup

/-!
# Lists with distinct keys

Where no two elements of a list have one key, looking for an element's key finds the element.
-/

namespace ClassForge

variable {α β : Type} [BEq β] [LawfulBEq β] {f : α → β} {l : List α} {a b : α} {k : β}

theorem find?_key_of_mem (h : (l.map f).Nodup) (ha : a ∈ l) : l.find? (f · == f a) = some a := by
  induction l with
  | nil => cases ha
  | cons x xs ih =>
    obtain ⟨hx, hxs⟩ := List.nodup_cons.1 (List.map_cons ▸ h)
    obtain rfl | ha := List.mem_cons.1 ha
    · simp
    · have hne : (f x == f a) = false := by
        simpa using fun heq : f x = f a => hx (heq ▸ List.mem_map_of_mem ha)
      rw [List.find?_cons, hne]
      exact ih hxs ha

theorem eq_of_key_eq (h : (l.map f).Nodup) (ha : a ∈ l) (hb : b ∈ l) (hkey : f a = f b) :
    a = b := by
  have hfind := find?_key_of_mem h ha
  rw [hkey, find?_key_of_mem h hb] at hfind
  exact (Option.some.inj hfind).symm

/-- What is found has the key that was looked for. -/
theorem key_of_find? (h : l.find? (f · == k) = some a) : f a = k := by
  simpa using List.find?_some h

/-- Nothing is found where no element has the key. -/
theorem find?_key_eq_none : l.find? (f · == k) = none ↔ ∀ a ∈ l, f a ≠ k := by
  simp

/-- Among the elements that are kept, an element's key finds it or nothing. -/
theorem find?_filter_key (h : (l.map f).Nodup) (p : α → Bool) :
    (l.filter p).find? (f · == k) = (l.find? (f · == k)).filter p := by
  cases hfind : l.find? (f · == k) with
  | none =>
    have hnone := find?_key_eq_none.1 hfind
    exact find?_key_eq_none.2 fun a ha => hnone a (List.mem_filter.1 ha).1
  | some a =>
    have ha := List.mem_of_find?_eq_some hfind
    obtain rfl := key_of_find? hfind
    by_cases hp : p a = true
    · rw [find?_key_of_mem (h.sublist (List.filter_sublist.map _)) (List.mem_filter.2 ⟨ha, hp⟩)]
      exact (Option.filter_some_pos hp).symm
    · have hdropped : (l.filter p).find? (f · == f a) = none := by
        refine find?_key_eq_none.2 fun x hx hkey => hp ?_
        obtain ⟨hmem, hpx⟩ := List.mem_filter.1 hx
        rwa [eq_of_key_eq h hmem ha hkey] at hpx
      rw [hdropped, Option.filter_some_neg (eq_false_of_ne_true hp)]

/-- Nothing is found in a list of pairs where no pair has the first part. -/
theorem lookup_eq_none_iff_notMem {ps : List (β × α)} :
    ps.lookup k = none ↔ k ∉ ps.map Prod.fst := by
  rw [List.lookup_eq_none_iff, List.mem_map]
  constructor
  · rintro h ⟨p, hp, rfl⟩
    simpa using h p hp
  · rintro h p hp
    simpa using fun heq : k = p.1 => h ⟨p, hp, heq.symm⟩

/-- A pair at the end of a list is found where no pair in front has its first part. -/
theorem lookup_concat [DecidableEq β] {ps : List (β × α)} {k' : β} :
    (ps ++ [(k', a)]).lookup k = (ps.lookup k).or (if k = k' then some a else none) := by
  rw [List.lookup_append, List.lookup_cons, List.lookup_nil]
  by_cases h : k = k'
  · simp [h]
  · simp [h, beq_eq_false_iff_ne.2 h]

/-- In a list of pairs whose first parts are distinct, looking one up finds its pair. -/
theorem lookup_eq_some_iff_mem {ps : List (β × α)} (h : (ps.map Prod.fst).Nodup) :
    ps.lookup k = some a ↔ (k, a) ∈ ps := by
  induction ps with
  | nil => simp
  | cons p ps ih =>
    obtain ⟨k', a'⟩ := p
    obtain ⟨hk', hps⟩ := List.nodup_cons.1 (List.map_cons ▸ h)
    rw [List.lookup_cons, List.mem_cons, Prod.mk.injEq]
    split
    next hk =>
      obtain rfl := eq_of_beq hk
      have hrest : (k, a) ∉ ps := fun hmem => hk' (List.mem_map.2 ⟨_, hmem, rfl⟩)
      simp [hrest, eq_comm]
    next hk => simp [ih hps, ne_of_beq_false hk]

end ClassForge

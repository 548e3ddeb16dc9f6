import ClassForge.Module.Basic
import ClassForge.Module.Declarations
import ClassForge.Proofs.Except
import ClassForge.Proofs.Keyed

/-!
# What is declared

Items that are declared one after the other, some in the place of others: each name is listed once,
where it came up first, with the item that came last.
-/

namespace ClassForge.Module

/-! ## Texts without repetition -/

theorem mem_keepFirst {text : String} {texts : List String} :
    text ∈ keepFirst texts ↔ text ∈ texts := by
  induction texts with
  | nil => rfl
  | cons t ts ih =>
    rw [keepFirst, List.mem_cons, List.mem_filter, ih, List.mem_cons]
    by_cases h : text = t <;> simp [h]

/-- A text more changes nothing if it is there already, and comes last if it is not. -/
theorem keepFirst_concat (texts : List String) (text : String) :
    keepFirst (texts ++ [text]) =
      if text ∈ texts then keepFirst texts else keepFirst texts ++ [text] := by
  induction texts with
  | nil => rfl
  | cons t ts ih =>
    rw [List.cons_append, keepFirst, ih, keepFirst]
    by_cases ht : text = t
    · subst ht
      by_cases hts : text ∈ ts <;> simp [hts]
    · by_cases hts : text ∈ ts <;> simp [ht, hts]

namespace Declarations

variable {α : Type} {d d' : Declarations α} {key : α → String} {name : String} {item : α}

/-- Each item is declared under its own name, and no name is declared twice. -/
structure Keyed (d : Declarations α) (key : α → String) : Prop where
  key_eq : ∀ x ∈ d.entries, key x.2 = x.1
  distinct : d.names.Nodup

theorem Keyed.names_eq (h : d.Keyed key) : d.items.map key = d.names := by
  rw [items, List.map_map]
  exact List.map_congr_left h.key_eq

theorem contains_iff : d.contains name = true ↔ name ∈ d.names := by
  simp [contains, names]

theorem mem_put {x : String × α} (h : x ∈ (d.put name item).entries) :
    x ∈ d.entries ∨ x = (name, item) := by
  unfold put at h
  split at h
  next =>
    obtain ⟨y, hy, rfl⟩ := List.mem_map.1 h
    split
    · exact .inr rfl
    · exact .inl hy
  next => exact (List.mem_append.1 h).imp_right List.mem_singleton.1

theorem mem_items_put {a : α} (h : a ∈ (d.put name item).items) : a ∈ d.items ∨ a = item := by
  obtain ⟨x, hx, rfl⟩ := List.mem_map.1 h
  exact (mem_put hx).imp List.mem_map_of_mem (congrArg Prod.snd)

/-- The name keeps its place if it has one, and is the last if it has none. -/
theorem names_put : (d.put name item).names
    = if name ∈ d.names then d.names else d.names ++ [name] := by
  unfold put
  split
  next hcontains =>
    -- replacing an item keeps its name and its position
    rw [if_pos (contains_iff.1 hcontains), names, names, List.map_map]
    refine List.map_congr_left fun x _ => ?_
    simp only [Function.comp_apply]
    split
    next heq => exact heq.symm
    next => rfl
  next hnew =>
    rw [if_neg fun hmem => hnew (contains_iff.2 hmem), names, List.map_append]
    rfl

theorem mem_names_put {n : String} :
    n ∈ (d.put name item).names ↔ n ∈ d.names ∨ n = name := by
  rw [names_put]
  split
  next hmem => exact ⟨.inl, fun h => h.elim id (· ▸ hmem)⟩
  next => rw [List.mem_append, List.mem_singleton]

theorem Keyed.put (h : d.Keyed key) (hkey : key item = name) : (d.put name item).Keyed key := by
  refine ⟨fun x hx => ?_, ?_⟩
  · rcases mem_put hx with hold | rfl
    · exact h.key_eq x hold
    · exact hkey
  · rw [names_put]
    split
    next => exact h.distinct
    next hnew =>
      refine List.nodup_append.2 ⟨h.distinct, List.nodup_singleton _, fun n hn m hm heq => hnew ?_⟩
      rwa [← List.mem_singleton.1 hm, ← heq]

/-- A name that is declared already stands in the way under the strict policy alone. -/
theorem declare_eq_ok {module : String} {policy : Policy} :
    d.declare module name item policy = .ok d' ↔
      (name ∈ d.names → policy ≠ .strict) ∧ d' = d.put name item := by
  rw [← contains_iff, declare, eq_comm (a := d')]
  cases d.contains name <;> cases policy <;> simp

theorem declare_bind_eq_ok {β : Type} {module : String} {policy : Policy} {f : Declarations α → β}
    {b : β} : (do
      let d' ← d.declare module name item policy
      return f d') = Except.ok b ↔
        (name ∈ d.names → policy ≠ .strict) ∧ b = f (d.put name item) := by
  simp only [bind_eq_ok, declare_eq_ok, pure_eq_ok]
  constructor
  · rintro ⟨_, ⟨hpolicy, rfl⟩, rfl⟩
    exact ⟨hpolicy, rfl⟩
  · rintro ⟨hpolicy, rfl⟩
    exact ⟨_, ⟨hpolicy, rfl⟩, rfl⟩

theorem lookup_map_replace {entries : List (String × α)} {n : String} :
    (entries.map fun e => if e.1 = name then (name, item) else e).lookup n =
      (entries.lookup n).map fun a => if n = name then item else a := by
  induction entries with
  | nil => rfl
  | cons e es ih =>
    obtain ⟨m, a⟩ := e
    -- the entry that is looked up may be the first one, and that may be the one replaced
    by_cases hn : n = m
    · subst hn
      by_cases hm : n = name <;> simp [hm]
    · have hne : (n == m) = false := beq_eq_false_iff_ne.2 hn
      by_cases hm : m = name
      · subst hm
        simp only [List.map_cons, if_true, List.lookup_cons, hne, ih]
      · simp only [List.map_cons, hm, if_false, List.lookup_cons, hne, ih]

/-- The item that was put is found under its name, and under each other name what was there. -/
theorem lookup_put {n : String} : (d.put name item).entries.lookup n =
    if n = name then some item else d.entries.lookup n := by
  unfold put
  split
  next hcontains =>
    rw [lookup_map_replace]
    by_cases hn : n = name
    · obtain ⟨a, ha⟩ : ∃ a, d.entries.lookup name = some a := by
        rw [← Option.ne_none_iff_exists', Ne, lookup_eq_none_iff_notMem, not_not]
        exact contains_iff.1 hcontains
      simp [hn, ha]
    · simp [hn]
  next hnew =>
    have hnone : d.entries.lookup name = none :=
      lookup_eq_none_iff_notMem.2 fun hmem => hnew (contains_iff.2 hmem)
    rw [lookup_concat]
    by_cases hn : n = name
    · simp [hn, hnone]
    · simp [hn]

/-! ### Declarations one after the other -/

/-- What is left of items that were declared in order: each name at the place where it came up
first, with the item that came last. -/
structure Latest (key : α → String) (declared items : List α) : Prop where
  names : items.map key = keepFirst (declared.map key)
  distinct : (items.map key).Nodup
  last : ∀ x ∈ items, declared.reverse.find? (key · == key x) = some x

/-- The declarations hold what is left of items that were declared in order. -/
structure Records (d : Declarations α) (key : α → String) (declared : List α) : Prop where
  keyed : d.Keyed key
  names : d.names = keepFirst (declared.map key)
  last : ∀ n, d.entries.lookup n = declared.reverse.find? (key · == n)

theorem records_empty : (⟨[]⟩ : Declarations α).Records key [] where
  keyed := ⟨by simp, List.nodup_nil⟩
  names := rfl
  last _ := rfl

theorem Records.put {declared : List α} (h : d.Records key declared) (hkey : key item = name) :
    (d.put name item).Records key (declared ++ [item]) where
  keyed := h.keyed.put hkey
  names := by
    rw [names_put, List.map_append, List.map_singleton, keepFirst_concat, hkey, h.names]
    simp only [mem_keepFirst]
  last n := by
    rw [lookup_put, h.last, List.reverse_append, List.reverse_singleton, List.singleton_append,
      List.find?_cons, hkey]
    by_cases hn : n = name
    · simp [hn]
    · simp [hn, beq_eq_false_iff_ne.2 (Ne.symm hn)]

theorem Records.latest {declared : List α} (h : d.Records key declared) :
    Latest key declared d.items where
  names := by rw [h.keyed.names_eq, h.names]
  distinct := by
    rw [h.keyed.names_eq]
    exact h.keyed.distinct
  last x hx := by
    obtain ⟨entry, hentry, rfl⟩ := List.mem_map.1 hx
    rw [← h.last, lookup_eq_some_iff_mem h.keyed.distinct, h.keyed.key_eq entry hentry]
    exact hentry

end Declarations

end ClassForge.Module

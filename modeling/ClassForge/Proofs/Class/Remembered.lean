import ClassForge.Proofs.Class.EntryPoint
import ClassForge.Proofs.Class.Lineage

/-!
# Pieces of other classes do not matter

What a draft resolves to depends, of all the pieces remembered, on those for its own class alone. So
a class that owns no piece yet resolves as if no class had been resolved before it.
-/

namespace ClassForge.Class

open C

namespace EntryPoints

/-- Two memories hold the same piece for each method of an owner. -/
def AgreesOn {α : Type} (owner : String) (memo memo' : List (MethodId × α)) : Prop :=
  ∀ method, memo.lookup (owner, method) = memo'.lookup (owner, method)

/-- The same pieces are remembered for the methods of an owner. -/
structure Agrees (owner : String) (e e' : EntryPoints) : Prop where
  typedefs : AgreesOn owner e.typedefs e'.typedefs
  delegators : AgreesOn owner e.delegators e'.delegators
  superDelegators : AgreesOn owner e.superDelegators e'.superDelegators

theorem agreesOn_nil {α : Type} {owner : String} {memo : List (MethodId × α)}
    (h : ∀ k ∈ memo.map (·.1), k.1 ≠ owner) : AgreesOn owner memo [] := by
  intro method
  rw [List.lookup_nil, lookup_eq_none_iff_notMem]
  exact fun hmem => h _ hmem rfl

/-- An owner of nothing is to one memory what it is to an empty one. -/
theorem Agrees.of_owns_nothing {owner : String} {e : EntryPoints}
    (h : ∀ k ∈ e.owned, k.1 ≠ owner) : Agrees owner e {} where
  typedefs := agreesOn_nil fun k hk => h k (by simp [owned, hk])
  delegators := agreesOn_nil fun k hk => h k (by simp [owned, hk])
  superDelegators := agreesOn_nil fun k hk => h k (by simp [owned, hk])

theorem Agrees.symm {owner : String} {e e' : EntryPoints} (h : Agrees owner e e') :
    Agrees owner e' e where
  typedefs method := (h.typedefs method).symm
  delegators method := (h.delegators method).symm
  superDelegators method := (h.superDelegators method).symm

section Pieces

variable {owner : String} {e e' e₁ : EntryPoints} {m : Signature}

theorem remember_congr {α : Type} {signature : α → Signature} {memo memo' kept : List (MethodId × α)}
    {method : String} {wanted : Signature} {make piece : α} (hagree : AgreesOn owner memo memo')
    (h : remember signature memo (owner, method) wanted make = .ok (piece, kept)) :
    ∃ kept', remember signature memo' (owner, method) wanted make = .ok (piece, kept') ∧
      AgreesOn owner kept kept' := by
  unfold remember at h ⊢
  rw [← hagree method]
  -- either both remember the same piece, or both keep the new one
  cases hfound : memo.lookup (owner, method) with
  | some old =>
    simp only [hfound] at h ⊢
    split at h
    next hcompat =>
      obtain ⟨rfl, rfl⟩ := Prod.mk.inj (Except.ok.inj h)
      exact ⟨memo', if_pos hcompat, hagree⟩
    next => cases h
  | none =>
    simp only [hfound] at h
    obtain ⟨rfl, rfl⟩ := Prod.mk.inj (Except.ok.inj h)
    refine ⟨_, rfl, fun n => ?_⟩
    rw [List.lookup_append, List.lookup_append, hagree n]

theorem typedef_congr {t : Typedef} (hagree : Agrees owner e e')
    (h : e.typedef m owner = .ok (t, e₁)) :
    ∃ e₁', e'.typedef m owner = .ok (t, e₁') ∧ Agrees owner e₁ e₁' := by
  obtain ⟨self, hcheck, h⟩ := bind_eq_ok.1 h
  obtain ⟨⟨piece, kept⟩, hmade, h⟩ := bind_eq_ok.1 h
  obtain ⟨rfl, rfl⟩ := Prod.mk.inj (pure_eq_ok.1 h)
  obtain ⟨kept', hmade', hkept⟩ := remember_congr hagree.typedefs hmade
  exact ⟨_, bind_eq_ok.2 ⟨self, hcheck, bind_eq_ok.2 ⟨_, hmade', rfl⟩⟩,
    { hagree with typedefs := hkept }⟩

theorem delegator_congr {f : FunctionDef} (hagree : Agrees owner e e')
    (h : e.delegator m owner = .ok (f, e₁)) :
    ∃ e₁', e'.delegator m owner = .ok (f, e₁') ∧ Agrees owner e₁ e₁' := by
  obtain ⟨self, hcheck, h⟩ := bind_eq_ok.1 h
  obtain ⟨⟨piece, kept⟩, hmade, h⟩ := bind_eq_ok.1 h
  obtain ⟨rfl, rfl⟩ := Prod.mk.inj (pure_eq_ok.1 h)
  obtain ⟨kept', hmade', hkept⟩ := remember_congr hagree.delegators hmade
  exact ⟨_, bind_eq_ok.2 ⟨self, hcheck, bind_eq_ok.2 ⟨_, hmade', rfl⟩⟩,
    { hagree with delegators := hkept }⟩

theorem superDelegator_congr {f : FunctionDef} (hagree : Agrees owner e e')
    (h : e.superDelegator m owner = .ok (f, e₁)) :
    ∃ e₁', e'.superDelegator m owner = .ok (f, e₁') ∧ Agrees owner e₁ e₁' := by
  obtain ⟨self, hcheck, h⟩ := bind_eq_ok.1 h
  obtain ⟨⟨piece, kept⟩, hmade, h⟩ := bind_eq_ok.1 h
  obtain ⟨rfl, rfl⟩ := Prod.mk.inj (pure_eq_ok.1 h)
  obtain ⟨kept', hmade', hkept⟩ := remember_congr hagree.superDelegators hmade
  exact ⟨_, bind_eq_ok.2 ⟨self, hcheck, bind_eq_ok.2 ⟨_, hmade', rfl⟩⟩,
    { hagree with superDelegators := hkept }⟩

theorem entry_congr {made : Entry} (hagree : Agrees owner e e')
    (h : e.entry owner m = (.ok made, e₁)) :
    ∃ e₁', e'.entry owner m = (.ok made, e₁') ∧ Agrees owner e₁ e₁' := by
  unfold entry at h ⊢
  -- the three pieces in turn; what is kept for one is there when the next is asked for
  split at h
  next => simp at h
  next t e₂ htypedef =>
    obtain ⟨e₂', htypedef', hagree₂⟩ := typedef_congr hagree htypedef
    split at h
    next => simp at h
    next f e₃ hdelegator =>
      obtain ⟨e₃', hdelegator', hagree₃⟩ := delegator_congr hagree₂ hdelegator
      split at h
      next => simp at h
      next g e₄ hsuper =>
        obtain ⟨e₄', hsuper', hagree₄⟩ := superDelegator_congr hagree₃ hsuper
        obtain ⟨hmade, rfl⟩ := Prod.mk.inj h
        exact ⟨e₄', by rw [htypedef', ← hmade]; simp only [hdelegator', hsuper'], hagree₄⟩

theorem entries_congr {ms : List Signature} {made : List Entry} (hagree : Agrees owner e e')
    (h : e.entries owner ms = (.ok made, e₁)) :
    ∃ e₁', e'.entries owner ms = (.ok made, e₁') ∧ Agrees owner e₁ e₁' := by
  induction ms generalizing e e' e₁ made with
  | nil =>
    obtain ⟨hmade, rfl⟩ := Prod.mk.inj h
    exact ⟨e', by rw [entries, ← hmade], hagree⟩
  | cons m ms ih =>
    unfold entries at h ⊢
    split at h
    next => simp at h
    next first e₂ hfirst =>
      obtain ⟨e₂', hfirst', hagree₂⟩ := entry_congr hagree hfirst
      split at h
      next => simp at h
      next rest e₃ hrest =>
        obtain ⟨e₃', hrest', hagree₃⟩ := ih hagree₂ hrest
        obtain ⟨hmade, rfl⟩ := Prod.mk.inj h
        exact ⟨e₃', by rw [hfirst', ← hmade]; simp only [hrest'], hagree₃⟩

end Pieces

section Resolve

variable {e e' : EntryPoints} {d : Draft} {base : Class} {r : Resolved}

/-- A draft that resolves does so, to the same class with the same entry points, wherever the same
pieces are remembered for its class. -/
theorem resolve_congr (hagree : Agrees d.name e e') (h : (e.resolve d base).1 = .ok r) :
    (e'.resolve d base).1 = .ok r := by
  unfold resolve at h ⊢
  cases hcls : d.resolveClass base with
  | error err => simp [hcls] at h
  | ok made =>
    obtain ⟨c, t⟩ := made
    simp only [hcls] at h ⊢
    cases hentries : e.entries d.name (t.introduced.map (·.signature)) with
    | mk result e₁ =>
      cases result with
      | error err => simp [hentries] at h
      | ok entries =>
        obtain ⟨e₁', hentries', -⟩ := entries_congr hagree hentries
        simpa only [hentries, hentries'] using h

/-- A class without pieces owns all pieces that resolving its draft adds. -/
theorem owned_resolve (hnew : ∀ k ∈ e.owned, k.1 ≠ d.name) (h : e.resolve d base = (.ok r, e')) :
    ∀ k ∈ e'.owned, k ∈ e.owned ∨ k.1 = d.name := by
  obtain ⟨hd, hentries⟩ := resolve_ok (e := e) (by rw [h])
  rw [h] at hentries
  have hadded : (((d.added base.methods).map (·.signature)).map (·.name)).Nodup := by
    rw [List.map_map]
    exact Draft.added_names_nodup hd.defs_nodup base.methods
  exact (entries_new hadded (fun m _ hmem => hnew _ hmem rfl) hentries).2

end Resolve

end EntryPoints

end ClassForge.Class

import ClassForge.Class.EntryPoint
import ClassForge.Proofs.Except
import ClassForge.Proofs.Keyed

/-!
# Entry points of new methods

Where nothing is remembered for a method, its entry points are made from its signature. So a class
whose name has not been an owner before gets the entry points that its table names.
-/

namespace ClassForge.Class

open C

namespace EntryPoints

/-- The methods for which some piece is remembered. -/
def owned (e : EntryPoints) : List MethodId :=
  e.typedefs.map (·.1) ++ e.delegators.map (·.1) ++ e.superDelegators.map (·.1)

/-- What the entry points of `method` are when they are made: each piece has the name and the
signature that `owner` and the method give it. -/
structure Fits (owner : String) (method : Signature) (made : Entry) : Prop where
  typedef : made.typedef = { name := Name.typedef owner method.name, signature := method }
  delegator : made.delegator.signature = delegatorSignature owner method
  superDelegator : made.superDelegator.signature = superSignature method

/-- What is not remembered is made, and remembered under its key. -/
theorem remember_of_new {α : Type} {signature : α → Signature} {memo : List (MethodId × α)}
    {key : MethodId} (wanted : Signature) (make : α) (hnew : key ∉ memo.map (·.1)) :
    remember signature memo key wanted make = .ok (make, memo ++ [(key, make)]) := by
  rw [remember, lookup_eq_none_iff_notMem.2 hnew]

theorem remember_new {α : Type} {signature : α → Signature} {memo memo' : List (MethodId × α)}
    {key : MethodId} {wanted : Signature} {make piece : α} (hnew : key ∉ memo.map (·.1))
    (h : remember signature memo key wanted make = .ok (piece, memo')) :
    piece = make ∧ memo'.map (·.1) = memo.map (·.1) ++ [key] := by
  rw [remember_of_new wanted make hnew] at h
  simp only [Except.ok.injEq, Prod.mk.injEq] at h
  obtain ⟨rfl, rfl⟩ := h
  simp

/-- The typedef of a new method. The other pieces stay remembered as they are. -/
theorem typedef_new {e e' : EntryPoints} {owner : String} {m : Signature} {t : Typedef}
    (hnew : (owner, m.name) ∉ e.typedefs.map (·.1)) (h : e.typedef m owner = .ok (t, e')) :
    t = { name := Name.typedef owner m.name, signature := m } ∧
      e'.typedefs.map (·.1) = e.typedefs.map (·.1) ++ [(owner, m.name)] ∧
      e'.delegators = e.delegators ∧ e'.superDelegators = e.superDelegators := by
  obtain ⟨_, -, h⟩ := bind_eq_ok.1 h
  obtain ⟨⟨piece, memo⟩, hmade, h⟩ := bind_eq_ok.1 h
  obtain ⟨rfl, rfl⟩ := Prod.mk.inj (pure_eq_ok.1 h)
  obtain ⟨hpiece, hmemo⟩ := remember_new hnew hmade
  exact ⟨hpiece, hmemo, rfl, rfl⟩

/-- The delegator of a new method. -/
theorem delegator_new {e e' : EntryPoints} {owner : String} {m : Signature} {f : FunctionDef}
    (hnew : (owner, m.name) ∉ e.delegators.map (·.1)) (h : e.delegator m owner = .ok (f, e')) :
    f.signature = delegatorSignature owner m ∧ e'.typedefs = e.typedefs ∧
      e'.delegators.map (·.1) = e.delegators.map (·.1) ++ [(owner, m.name)] ∧
      e'.superDelegators = e.superDelegators := by
  obtain ⟨self, -, h⟩ := bind_eq_ok.1 h
  obtain ⟨⟨piece, memo⟩, hmade, h⟩ := bind_eq_ok.1 h
  obtain ⟨rfl, rfl⟩ := Prod.mk.inj (pure_eq_ok.1 h)
  obtain ⟨hpiece, hmemo⟩ := remember_new hnew hmade
  exact ⟨by rw [hpiece], rfl, hmemo, rfl⟩

/-- The super-delegator of a new method. -/
theorem superDelegator_new {e e' : EntryPoints} {owner : String} {m : Signature} {f : FunctionDef}
    (hnew : (owner, m.name) ∉ e.superDelegators.map (·.1))
    (h : e.superDelegator m owner = .ok (f, e')) :
    f.signature = superSignature m ∧ e'.typedefs = e.typedefs ∧ e'.delegators = e.delegators ∧
      e'.superDelegators.map (·.1) = e.superDelegators.map (·.1) ++ [(owner, m.name)] := by
  obtain ⟨_, -, h⟩ := bind_eq_ok.1 h
  obtain ⟨⟨piece, memo⟩, hmade, h⟩ := bind_eq_ok.1 h
  obtain ⟨rfl, rfl⟩ := Prod.mk.inj (pure_eq_ok.1 h)
  obtain ⟨hpiece, hmemo⟩ := remember_new hnew hmade
  exact ⟨by rw [hpiece], rfl, rfl, hmemo⟩

/-- The three pieces of a new method, which is the only one owned besides from then on. -/
theorem entry_new {e e' : EntryPoints} {owner : String} {m : Signature} {made : Entry}
    (hnew : (owner, m.name) ∉ e.owned) (h : e.entry owner m = (.ok made, e')) :
    Fits owner m made ∧ ∀ k ∈ e'.owned, k ∈ e.owned ∨ k = (owner, m.name) := by
  simp only [owned, List.mem_append, not_or] at hnew
  obtain ⟨⟨hnewType, hnewDelegator⟩, hnewSuper⟩ := hnew
  -- the three tables are asked in turn; each gains the key and leaves the others alone
  unfold entry at h
  split at h
  next => simp at h
  next t e₁ htypedef =>
    obtain ⟨ht, htypes₁, hdelegators₁, hsupers₁⟩ := typedef_new hnewType htypedef
    split at h
    next => simp at h
    next f e₂ hdelegator =>
      obtain ⟨hf, htypes₂, hdelegators₂, hsupers₂⟩ :=
        delegator_new (by rwa [hdelegators₁]) hdelegator
      split at h
      next => simp at h
      next g e₃ hsuper =>
        obtain ⟨hg, htypes₃, hdelegators₃, hsupers₃⟩ :=
          superDelegator_new (by rwa [hsupers₂, hsupers₁]) hsuper
        obtain ⟨rfl, rfl⟩ : made = ⟨t, f, g⟩ ∧ e' = e₃ := by
          simpa [eq_comm] using h
        refine ⟨⟨ht, hf, hg⟩, fun k hk => ?_⟩
        simp only [owned, List.mem_append, htypes₃, htypes₂, htypes₁, hdelegators₃, hdelegators₂,
          hdelegators₁, hsupers₃, hsupers₂, hsupers₁, List.mem_singleton] at hk ⊢
        tauto

/-- What one method of an owner adds is not in the way of its other methods. -/
theorem notMem_owned_of_entry {e e' : EntryPoints} {owner : String} {m : Signature}
    {ms : List Signature} (hm : m.name ∉ ms.map (·.name))
    (hnew : ∀ n ∈ m :: ms, (owner, n.name) ∉ e.owned)
    (howned : ∀ k ∈ e'.owned, k ∈ e.owned ∨ k = (owner, m.name)) :
    ∀ n ∈ ms, (owner, n.name) ∉ e'.owned := by
  intro n hn hmem
  rcases howned _ hmem with hold | heq
  · exact hnew n (List.mem_cons_of_mem _ hn) hold
  · exact hm (List.mem_map.2 ⟨n, hn, congrArg Prod.snd heq⟩)

/-- The pieces of several new methods of one owner. -/
theorem entries_new {e e' : EntryPoints} {owner : String} {ms : List Signature} {made : List Entry}
    (hnodup : (ms.map (·.name)).Nodup) (hnew : ∀ m ∈ ms, (owner, m.name) ∉ e.owned)
    (h : e.entries owner ms = (.ok made, e')) :
    List.Forall₂ (Fits owner) ms made ∧ ∀ k ∈ e'.owned, k ∈ e.owned ∨ k.1 = owner := by
  induction ms generalizing e made with
  | nil =>
    obtain ⟨rfl, rfl⟩ : made = [] ∧ e' = e := by
      simpa [entries, eq_comm] using h
    exact ⟨.nil, fun k hk => .inl hk⟩
  | cons m ms ih =>
    obtain ⟨hm, hnodup⟩ := List.nodup_cons.1 (List.map_cons ▸ hnodup)
    unfold entries at h
    split at h
    next => simp at h
    next first e₁ hfirst =>
      obtain ⟨hfits, howned₁⟩ := entry_new (hnew m List.mem_cons_self) hfirst
      split at h
      next => simp at h
      next rest e₂ hrest =>
        obtain ⟨rfl, rfl⟩ : made = first :: rest ∧ e' = e₂ := by
          simpa [eq_comm] using h
        -- names are distinct, so those still to come are new in the tables as they are now
        have hnew₁ := notMem_owned_of_entry hm hnew howned₁
        obtain ⟨hall, howned₂⟩ := ih hnodup hnew₁ hrest
        refine ⟨.cons hfits hall, fun k hk => ?_⟩
        rcases howned₂ k hk with hold | howner
        · exact (howned₁ k hold).imp_right fun heq => by rw [heq]
        · exact .inr howner

/-! ## Nothing stands in the way -/

/-- A new method that passes the check gets its pieces. -/
theorem exists_entry {e : EntryPoints} {owner : String} {m : Signature} {self : Variable}
    (hcheck : checkMethod owner m = .ok self) (hnew : (owner, m.name) ∉ e.owned) :
    ∃ made e', e.entry owner m = (.ok made, e') := by
  simp only [owned, List.mem_append, not_or] at hnew
  obtain ⟨⟨hnewType, hnewDelegator⟩, hnewSuper⟩ := hnew
  have htypedef : ∀ make, remember Typedef.signature e.typedefs (owner, m.name) m make = _ :=
    fun make => remember_of_new m make hnewType
  have hdelegator : ∀ make,
      remember FunctionDef.signature e.delegators (owner, m.name) m make = _ :=
    fun make => remember_of_new m make hnewDelegator
  have hsuper : ∀ make, remember FunctionDef.signature e.superDelegators (owner, m.name)
      (superSignature m) make = _ :=
    fun make => remember_of_new (superSignature m) make hnewSuper
  simp only [entry, typedef, delegator, superDelegator, hcheck, htypedef, hdelegator, hsuper, bind,
    Except.bind, pure, Except.pure]
  exact ⟨_, _, rfl⟩

/-- So do several new methods of one owner. -/
theorem exists_entries {e : EntryPoints} {owner : String} {ms : List Signature}
    (hcheck : ∀ m ∈ ms, ∃ self, checkMethod owner m = .ok self)
    (hnodup : (ms.map (·.name)).Nodup) (hnew : ∀ m ∈ ms, (owner, m.name) ∉ e.owned) :
    ∃ made e', e.entries owner ms = (.ok made, e') := by
  induction ms generalizing e with
  | nil => exact ⟨[], e, rfl⟩
  | cons m ms ih =>
    obtain ⟨hm, hnodup⟩ := List.nodup_cons.1 (List.map_cons ▸ hnodup)
    obtain ⟨self, hself⟩ := hcheck m List.mem_cons_self
    obtain ⟨first, e₁, hfirst⟩ := exists_entry hself (hnew m List.mem_cons_self)
    obtain ⟨-, howned⟩ := entry_new (hnew m List.mem_cons_self) hfirst
    have hnew₁ := notMem_owned_of_entry hm hnew howned
    obtain ⟨rest, e₂, hrest⟩ := ih (fun n hn => hcheck n (List.mem_cons_of_mem _ hn)) hnodup hnew₁
    refine ⟨first :: rest, e₂, ?_⟩
    simp only [entries, hfirst, hrest]

end EntryPoints

end ClassForge.Class

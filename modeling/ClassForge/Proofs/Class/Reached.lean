import ClassForge.Proofs.Class.Request
import ClassForge.Proofs.Class.WellNamed

/-!
# Memories that are reached

Pieces are asked for one by one, for classes whose names are identifiers and methods whose
definitions were accepted; resolving a draft asks for those of the methods that it adds, and does
nothing else. So each function that is given out was made for such a request: for the one that it is
given out for, or for an earlier one with the same owner and method name.
-/

namespace ClassForge

namespace C

theorem Signature.exists_of_self? {s : Signature} {self : Variable} (h : s.self? = some self) :
    ∃ others, s.params = self :: others := by
  unfold self? at h
  split at h
  next => cases h
  next p ps hparams =>
    split at h
    next => exact ⟨ps, Option.some.inj h ▸ hparams⟩
    next => cases h

end C

namespace Class

open C

/-- What a draft adds to a table has the signatures of definitions that were accepted. -/
theorem Draft.Written.exists_of_mem_added {d : Draft} (hd : d.Written) {inherited : List Method}
    {m : Method} (hm : m ∈ d.added inherited) :
    ∃ f : MethodDef, f.Written ∧ f.signature = m.signature := by
  obtain ⟨f, hf, rfl⟩ := List.mem_map.1 hm
  have hface := congrArg Face.signature (d.face_copied (f.introduce d.name))
  exact ⟨f, hd.methods f (mem_newDefs.1 hf).1, hface.symm⟩

namespace EntryPoints

/-! ### Requests that were written -/

/-- A request for a class whose name is an identifier, and for a method whose definition was
accepted. -/
structure Request.Written (r : Request) : Prop where
  owner : isIdentifier r.owner = true
  method : ∃ f : MethodDef, f.Written ∧ f.signature = r.method

namespace Request.Written

variable {r : Request}

theorem isIdentifier_name (h : r.Written) : isIdentifier r.method.name = true := by
  obtain ⟨f, hf, hmethod⟩ := h.method
  exact hmethod ▸ hf.isIdentifier_name

theorem isIdentifier_param (h : r.Written) :
    ∀ p ∈ r.method.params, isIdentifier p.name = true := by
  obtain ⟨f, hf, hmethod⟩ := h.method
  exact hmethod ▸ hf.isIdentifier_param

theorem notMem_reserved (h : r.Written) : ∀ p ∈ r.method.params, p.name ∉ Name.reserved := by
  obtain ⟨f, hf, hmethod⟩ := h.method
  exact hmethod ▸ hf.notMem_reserved

theorem nodup_names (h : r.Written) : (r.method.params.map (·.name)).Nodup := by
  obtain ⟨f, hf, hmethod⟩ := h.method
  exact hmethod ▸ (Signature.checkParams_eq_ok.1 (hf.signature.checkParams_eq f.name)).2

end Request.Written

/-! ### What is given out -/

/-- The memories that such requests lead to. -/
inductive Reached : EntryPoints → Prop where
  | empty : Reached {}
  | answer {e : EntryPoints} {r : Request} (he : Reached e) (hr : r.Written) :
    Reached (e.answer r).2

/-- A function that such a request is given, for a piece of this kind. -/
def Given (kind : PieceKind) (g : FunctionDef) : Prop :=
  ∃ e r, Reached e ∧ r.Written ∧ r.kind = kind ∧ (e.answer r).1 = .ok (.function g)

variable {e : EntryPoints}

/-- A piece that is remembered was made for a request for the same subject. -/
theorem Reached.exists_maker (he : e.Reached) {s : Subject} {p : Piece}
    (h : e.remembered? s = some p) :
    ∃ (q : Request) (self : Variable), q.Written ∧ q.subject = s ∧ q.method.self? = some self ∧
      p = q.piece self := by
  induction he generalizing s p with
  | empty => rcases s with ⟨_ | _ | _, _⟩ <;> cases h
  | @answer e r _ hr ih =>
    rw [remembered?_answer, Option.or_eq_some_iff] at h
    -- a piece that was not there before this request was made by it
    rcases h with hold | ⟨hnone, hnew⟩
    · exact ih hold
    · split at hnew
      next hs =>
        subst hs
        have hanswers := e.answers r
        generalize (e.answer r).1 = a, (e.answer r).2 = e' at hanswers hnew
        cases hanswers with
        | inadmissible => cases hnew
        | changed => cases hnew
        | again _ hfound =>
          rw [hnone] at hfound
          cases hfound
        | @made self _ hself =>
          cases hnew
          exact ⟨r, self, hr, rfl, hself, rfl⟩
      next => cases hnew

/-- A function that is given out is the piece of some request. -/
theorem Given.exists_maker {kind : PieceKind} {g : FunctionDef} (h : Given kind g) :
    ∃ (q : Request) (self : Variable), q.Written ∧ q.kind = kind ∧ q.method.self? = some self ∧
      Piece.function g = q.piece self := by
  obtain ⟨e, r, he, hr, rfl, hg⟩ := h
  have hanswers := e.answers r
  rw [hg] at hanswers
  generalize (e.answer r).2 = e' at hanswers
  generalize hp : Piece.function g = p at hanswers
  cases hanswers with
  | again _ hfound =>
    obtain ⟨q, self, hq, hsubject, hself, hpiece⟩ := he.exists_maker hfound
    exact ⟨q, self, hq, congrArg Prod.fst hsubject, hself, hpiece⟩
  | @made self _ hself => exact ⟨r, self, hr, rfl, hself, rfl⟩

/-- So it is one of two functions. -/
theorem Given.cases {kind : PieceKind} {g : FunctionDef} (h : Given kind g) :
    ∃ (q : Request) (self : Variable), q.Written ∧ q.method.self? = some self ∧
      (kind = .delegator ∧ g = q.delegator self ∨ kind = .superDelegator ∧ g = q.superDelegator) := by
  obtain ⟨⟨kind, owner, m⟩, self, hq, rfl, hself, hpiece⟩ := h.exists_maker
  refine ⟨_, self, hq, hself, ?_⟩
  cases kind with
  | typedef => cases hpiece
  | delegator => exact .inl ⟨rfl, Piece.function.inj hpiece⟩
  | superDelegator => exact .inr ⟨rfl, Piece.function.inj hpiece⟩

/-! ### Resolving -/

variable {owner : String} {m : Signature} {e' : EntryPoints}

theorem Reached.typedef {t : Typedef} (he : e.Reached) (hm : Request.Written ⟨.typedef, owner, m⟩)
    (h : e.typedef m owner = .ok (t, e')) : e'.Reached := by
  have hanswer : e.answer ⟨.typedef, owner, m⟩ = (.ok (.typedef t), e') :=
    congrArg (e.settle .typedef) h
  have hreached := he.answer hm
  rwa [hanswer] at hreached

theorem Reached.function {r : Request} {g : FunctionDef} (he : e.Reached) (hr : r.Written)
    (h : e.answer r = (.ok (.function g), e')) : Given r.kind g ∧ e'.Reached := by
  have hreached := he.answer hr
  rw [h] at hreached
  exact ⟨⟨e, r, he, hr, rfl, congrArg Prod.fst h⟩, hreached⟩

theorem Reached.delegator {f : FunctionDef} (he : e.Reached)
    (hm : Request.Written ⟨.delegator, owner, m⟩) (h : e.delegator m owner = .ok (f, e')) :
    Given .delegator f ∧ e'.Reached :=
  he.function hm (congrArg (e.settle .function) h)

theorem Reached.superDelegator {f : FunctionDef} (he : e.Reached)
    (hm : Request.Written ⟨.superDelegator, owner, m⟩)
    (h : e.superDelegator m owner = .ok (f, e')) : Given .superDelegator f ∧ e'.Reached :=
  he.function hm (congrArg (e.settle .function) h)

/-- Both functions of an entry were given out. -/
structure EntryGiven (made : Entry) : Prop where
  delegator : Given .delegator made.delegator
  superDelegator : Given .superDelegator made.superDelegator

/-- The pieces of a method are asked for one after the other. -/
theorem Reached.entry {result : Except ModelError Entry} (he : e.Reached)
    (hm : ∀ kind, Request.Written ⟨kind, owner, m⟩) (h : e.entry owner m = (result, e')) :
    (∀ made, result = .ok made → EntryGiven made) ∧ e'.Reached := by
  unfold EntryPoints.entry at h
  -- a piece that fails ends the entry, and the tables stay reached
  split at h
  next =>
    obtain ⟨rfl, rfl⟩ := Prod.mk.inj h
    exact ⟨fun _ hmade => (nomatch hmade), he⟩
  next t e₁ htypedef =>
    have he₁ := he.typedef (hm .typedef) htypedef
    split at h
    next =>
      obtain ⟨rfl, rfl⟩ := Prod.mk.inj h
      exact ⟨fun _ hmade => (nomatch hmade), he₁⟩
    next f e₂ hdelegator =>
      obtain ⟨hf, he₂⟩ := he₁.delegator (hm .delegator) hdelegator
      split at h
      next =>
        obtain ⟨rfl, rfl⟩ := Prod.mk.inj h
        exact ⟨fun _ hmade => (nomatch hmade), he₂⟩
      next g e₃ hsuper =>
        obtain ⟨hg, he₃⟩ := he₂.superDelegator (hm .superDelegator) hsuper
        obtain ⟨rfl, rfl⟩ := Prod.mk.inj h
        exact ⟨fun made hmade => Except.ok.inj hmade ▸ ⟨hf, hg⟩, he₃⟩

theorem Reached.entries {ms : List Signature} {result : Except ModelError (List Entry)}
    (he : e.Reached) (hms : ∀ m ∈ ms, ∀ kind, Request.Written ⟨kind, owner, m⟩)
    (h : e.entries owner ms = (result, e')) :
    (∀ made, result = .ok made → ∀ x ∈ made, EntryGiven x) ∧ e'.Reached := by
  induction ms generalizing e result e' with
  | nil =>
    obtain ⟨rfl, rfl⟩ := Prod.mk.inj h
    exact ⟨fun made hmade => Except.ok.inj hmade ▸ by simp, he⟩
  | cons m ms ih =>
    obtain ⟨hm, hms⟩ := List.forall_mem_cons.1 hms
    unfold EntryPoints.entries at h
    split at h
    next err e₁ hfirst =>
      obtain ⟨rfl, rfl⟩ := Prod.mk.inj h
      exact ⟨fun _ hmade => (nomatch hmade), (he.entry hm hfirst).2⟩
    next first e₁ hfirst =>
      obtain ⟨hgiven, he₁⟩ := he.entry hm hfirst
      split at h
      next err e₂ hrest =>
        obtain ⟨rfl, rfl⟩ := Prod.mk.inj h
        exact ⟨fun _ hmade => (nomatch hmade), (ih he₁ hms hrest).2⟩
      next rest e₂ hrest =>
        obtain ⟨hall, he₂⟩ := ih he₁ hms hrest
        obtain ⟨rfl, rfl⟩ := Prod.mk.inj h
        exact ⟨fun made hmade => Except.ok.inj hmade ▸
          List.forall_mem_cons.2 ⟨hgiven first rfl, hall rest rfl⟩, he₂⟩

/-- The functions of the methods that a class introduces are given out, and the memory behind a
draft is reached also where the draft is refused. -/
theorem Reached.resolve {d : Draft} {base : Class} {result : Except ModelError Resolved}
    (he : e.Reached) (hd : d.Written) (h : e.resolve d base = (result, e')) :
    (∀ r, result = .ok r → ∀ x ∈ r.entries, EntryGiven x) ∧ e'.Reached := by
  unfold EntryPoints.resolve at h
  split at h
  next =>
    obtain ⟨rfl, rfl⟩ := Prod.mk.inj h
    exact ⟨fun _ hmade => (nomatch hmade), he⟩
  next c t hcls =>
    obtain ⟨hderives, hadded⟩ := Draft.derives_of_resolveClass hcls
    have hms : ∀ m ∈ t.introduced.map (·.signature), ∀ kind,
        Request.Written ⟨kind, d.name, m⟩ :=
      List.forall_mem_map.2 fun m hm kind =>
        ⟨StructType.isIdentifier_of_layOut hderives.object, hd.exists_of_mem_added (hadded ▸ hm)⟩
    split at h
    next err e₁ hentries =>
      obtain ⟨rfl, rfl⟩ := Prod.mk.inj h
      exact ⟨fun _ hmade => (nomatch hmade), (he.entries hms hentries).2⟩
    next entries e₁ hentries =>
      obtain ⟨hall, he₁⟩ := he.entries hms hentries
      obtain ⟨rfl, rfl⟩ := Prod.mk.inj h
      exact ⟨fun r hr => Except.ok.inj hr ▸ hall entries rfl, he₁⟩

end EntryPoints

end Class

end ClassForge

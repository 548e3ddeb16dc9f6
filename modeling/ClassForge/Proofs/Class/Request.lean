import ClassForge.Proofs.Class.Accepted
import ClassForge.Proofs.History
import ClassForge.Proofs.Keyed
import Mathlib.Data.Finset.Card
import Mathlib.Data.Finset.Dedup

/-!
# Requests for entry points

Typedefs, delegators and super-delegators may be asked for in any order, for any owners and methods.
What a request is answered depends on the first request that was answered for the same subject: its
piece is given out for good, to every request for the same types. Refused requests, and those for
other subjects, do not matter.

Three memories are behind this, one for each kind of piece. `remembered?` looks at them as one, and
`Answers` says all that a request can do to them.
-/

namespace ClassForge.Class.EntryPoints

open C History

/-- What a piece is to its method. -/
inductive PieceKind where
  | typedef
  | delegator
  | superDelegator
deriving Repr, DecidableEq

/-- A piece, of any kind. -/
inductive Piece where
  | typedef (t : Typedef)
  | function (f : FunctionDef)
deriving Repr

/-- The signature that a piece was made with. -/
def Piece.signature : Piece → Signature
  | .typedef t => t.signature
  | .function f => f.signature

/-- What pieces are remembered by: a kind, and an owner with a method name. -/
abbrev Subject := PieceKind × MethodId

/-- A request for a piece. -/
structure Request where
  kind : PieceKind
  owner : String
  method : Signature
deriving Repr, DecidableEq

namespace Request

/-- What the request is for. -/
def subject (r : Request) : Subject :=
  (r.kind, r.owner, r.method.name)

/-- The method takes its object first, and no parameter has a name that entry points use. -/
structure Admissible (r : Request) : Prop where
  self : r.method.self?.isSome = true
  reserved : ∀ p ∈ r.method.params, p.name ∉ Name.reserved

/-- The signature that a remembered piece is compared with. -/
def compared (r : Request) : Signature :=
  match r.kind with
  | .typedef | .delegator => r.method
  | .superDelegator => superSignature r.method

/-- The typedef, if that is what is asked for. -/
def typedef (r : Request) : Typedef :=
  { name := Name.typedef r.owner r.method.name, signature := r.method }

/-- The delegator of a method whose object is the parameter `self`. -/
def delegator (r : Request) (self : Variable) : FunctionDef :=
  { signature := delegatorSignature r.owner r.method
    body := .generated (delegatorCode r.owner r.method self.name) }

/-- The super-delegator, if that is what is asked for. -/
def superDelegator (r : Request) : FunctionDef :=
  { signature := superSignature r.method, body := .generated (superCode r.owner r.method) }

/-- The piece that the request has made, if none is remembered. -/
def piece (r : Request) (self : Variable) : Piece :=
  match r.kind with
  | .typedef => .typedef r.typedef
  | .delegator => .function (r.delegator self)
  | .superDelegator => .function r.superDelegator

/-- The signature of that piece, made step by step from that of the method with all checks. -/
def checkedSignature (r : Request) : Except TypeError Signature :=
  match r.kind with
  | .typedef => .ok r.method
  | .delegator => checkedDelegator r.owner r.method
  | .superDelegator => checkedSuperDelegator r.method

end Request

/-- What becomes of a piece that was asked for. A refusal leaves the memory as it was. -/
def settle {α : Type} (e : EntryPoints) (f : α → Piece) :
    Except ModelError (α × EntryPoints) → Except ModelError Piece × EntryPoints
  | .ok (a, e') => (.ok (f a), e')
  | .error err => (.error err, e)

/-- Answers a request. -/
def answer (e : EntryPoints) (r : Request) : Except ModelError Piece × EntryPoints :=
  match r.kind with
  | .typedef => e.settle .typedef (e.typedef r.method r.owner)
  | .delegator => e.settle .function (e.delegator r.method r.owner)
  | .superDelegator => e.settle .function (e.superDelegator r.method r.owner)

/-! ### The three memories as one -/

/-- The piece remembered for a subject. -/
def remembered? (e : EntryPoints) (s : Subject) : Option Piece :=
  match s.1 with
  | .typedef => (e.typedefs.lookup s.2).map .typedef
  | .delegator => (e.delegators.lookup s.2).map .function
  | .superDelegator => (e.superDelegators.lookup s.2).map .function

/-- The memory with the piece more that a request has made. -/
def keep (e : EntryPoints) (r : Request) (self : Variable) : EntryPoints :=
  match r.kind with
  | .typedef => { e with typedefs := e.typedefs ++ [((r.owner, r.method.name), r.typedef)] }
  | .delegator =>
    { e with delegators := e.delegators ++ [((r.owner, r.method.name), r.delegator self)] }
  | .superDelegator =>
    { e with
      superDelegators := e.superDelegators ++ [((r.owner, r.method.name), r.superDelegator)] }

theorem remembered?_keep {e : EntryPoints} {r : Request} {self : Variable} {s : Subject} :
    (e.keep r self).remembered? s =
      (e.remembered? s).or (if s = r.subject then some (r.piece self) else none) := by
  obtain ⟨kind, method⟩ := s
  obtain ⟨kind', owner, m⟩ := r
  by_cases hmethod : method = (owner, m.name) <;> cases kind <;> cases kind' <;>
    simp [keep, remembered?, lookup_concat, Request.subject, Request.piece, hmethod]

/-! ### What a request does -/

theorem checkMethod_eq_ok {r : Request} {self : Variable} :
    checkMethod r.owner r.method = .ok self ↔ r.Admissible ∧ r.method.self? = some self := by
  have hreserved : r.method.params.find? (Name.reserved.contains ·.name) = none ↔
      ∀ p ∈ r.method.params, p.name ∉ Name.reserved := by
    simp
  unfold checkMethod
  -- the receiver is looked for first, then the names that are reserved
  cases hself : r.method.self? with
  | none =>
    refine ⟨fun h => ?_, fun h => ?_⟩
    · cases h
    · cases h.2
  | some first =>
    cases hfind : r.method.params.find? (Name.reserved.contains ·.name) with
    | none =>
      have hr : r.Admissible := ⟨by rw [hself]; rfl, hreserved.1 hfind⟩
      simp [hr]
    | some p =>
      refine ⟨fun h => ?_, fun h => ?_⟩
      · cases h
      · rw [hreserved.2 h.1.reserved] at hfind
        cases hfind

/-- What a request can do: it is refused, or it is given the piece that is remembered, or its piece
is made. -/
inductive Answers (e : EntryPoints) (r : Request) : Except ModelError Piece → EntryPoints → Prop
  | inadmissible {err : ModelError} (hr : ¬ r.Admissible)
    (hcheck : checkMethod r.owner r.method = .error err) : Answers e r (.error err) e
  | changed {p : Piece} (hr : r.Admissible) (hfound : e.remembered? r.subject = some p)
    (htypes : p.signature.compatible r.compared = false) :
    Answers e r (.error (.entryChanged r.owner r.compared.name)) e
  | again {p : Piece} (hr : r.Admissible) (hfound : e.remembered? r.subject = some p)
    (htypes : p.signature.compatible r.compared = true) : Answers e r (.ok p) e
  | made {self : Variable} (hr : r.Admissible) (hself : r.method.self? = some self)
    (hnew : e.remembered? r.subject = none) : Answers e r (.ok (r.piece self)) (e.keep r self)

/-- The check and the look into a memory, whatever the kind of the pieces in it. -/
theorem answers_remember {α : Type} {signature : α → Signature} {f : α → Piece}
    {memo : List (MethodId × α)} {make : Variable → α} (put : List (MethodId × α) → EntryPoints)
    {e : EntryPoints} {r : Request} (hsignature : ∀ a, (f a).signature = signature a)
    (hlookup : e.remembered? r.subject = (memo.lookup (r.owner, r.method.name)).map f)
    (hpiece : ∀ self, r.piece self = f (make self)) (hput : put memo = e)
    (hkeep : ∀ self, put (memo ++ [((r.owner, r.method.name), make self)]) = e.keep r self)
    {x : Except ModelError (α × EntryPoints)}
    (hx : x = do
      let self ← checkMethod r.owner r.method
      let (piece, memo) ← remember signature memo (r.owner, r.method.name) r.compared (make self)
      return (piece, put memo)) :
    Answers e r (e.settle f x).1 (e.settle f x).2 := by
  subst hx
  cases hcheck : checkMethod r.owner r.method with
  | error err =>
    -- an admissible request passes the check
    refine .inadmissible (fun hr => ?_) hcheck
    obtain ⟨self, hself⟩ := Option.isSome_iff_exists.1 hr.self
    rw [checkMethod_eq_ok.2 ⟨hr, hself⟩] at hcheck
    cases hcheck
  | ok self =>
    obtain ⟨hr, hself⟩ := checkMethod_eq_ok.1 hcheck
    cases hfound : memo.lookup (r.owner, r.method.name) with
    | none =>
      rw [hfound] at hlookup
      have hmade := Answers.made hr hself hlookup
      rw [hpiece, ← hkeep] at hmade
      simpa only [remember, hfound, bind, Except.bind, pure, Except.pure, settle] using hmade
    | some a =>
      rw [hfound] at hlookup
      cases htypes : (signature a).compatible r.compared with
      | true =>
        have hagain := Answers.again hr hlookup (by rw [hsignature, htypes])
        simpa only [remember, hfound, htypes, if_true, bind, Except.bind, pure, Except.pure, settle,
          hput] using hagain
      | false =>
        have hchanged := Answers.changed hr hlookup (by rw [hsignature, htypes])
        simpa only [remember, hfound, htypes, Bool.false_eq_true, if_false, bind, Except.bind,
          settle] using hchanged

theorem answers (e : EntryPoints) (r : Request) : Answers e r (e.answer r).1 (e.answer r).2 := by
  obtain ⟨kind, owner, m⟩ := r
  cases kind with
  | typedef =>
    exact answers_remember (fun typedefs => { e with typedefs }) (fun _ => rfl) rfl
      (fun _ => rfl) rfl (fun _ => rfl) rfl
  | delegator =>
    exact answers_remember (fun delegators => { e with delegators }) (fun _ => rfl) rfl
      (fun _ => rfl) rfl (fun _ => rfl) rfl
  | superDelegator =>
    exact answers_remember (fun superDelegators => { e with superDelegators }) (fun _ => rfl) rfl
      (fun _ => rfl) rfl (fun _ => rfl) rfl

/-- The answer to a request for whose subject `found` is remembered. -/
def Request.reply (r : Request) (found : Option Piece) : Except ModelError Piece := do
  let self ← checkMethod r.owner r.method
  match found with
  | none => return r.piece self
  | some p =>
    if p.signature.compatible r.compared then return p
    else throw (.entryChanged r.owner r.compared.name)

/-- An answer depends on what is remembered for its subject alone. -/
theorem answer_fst (e : EntryPoints) (r : Request) :
    (e.answer r).1 = r.reply (e.remembered? r.subject) := by
  have hanswers := e.answers r
  generalize (e.answer r).1 = a, (e.answer r).2 = e' at hanswers ⊢
  -- the reply makes the same checks in the same order
  cases hanswers with
  | inadmissible _ hcheck => simp [Request.reply, hcheck, bind, Except.bind]
  | changed hr hfound htypes =>
    obtain ⟨self, hself⟩ := Option.isSome_iff_exists.1 hr.self
    simp [Request.reply, checkMethod_eq_ok.2 ⟨hr, hself⟩, hfound, htypes, bind, Except.bind, throw,
      throwThe, MonadExceptOf.throw]
  | again hr hfound htypes =>
    obtain ⟨self, hself⟩ := Option.isSome_iff_exists.1 hr.self
    simp [Request.reply, checkMethod_eq_ok.2 ⟨hr, hself⟩, hfound, htypes, bind, Except.bind, pure,
      Except.pure]
  | made hr hself hnew =>
    simp [Request.reply, checkMethod_eq_ok.2 ⟨hr, hself⟩, hnew, bind, Except.bind, pure,
      Except.pure]

/-- A request adds its answer to what is remembered, where nothing was, and changes nothing else. -/
theorem remembered?_answer (e : EntryPoints) (r : Request) (s : Subject) :
    (e.answer r).2.remembered? s =
      (e.remembered? s).or (if s = r.subject then (e.answer r).1.toOption else none) := by
  have hanswers := e.answers r
  generalize (e.answer r).1 = a, (e.answer r).2 = e' at hanswers ⊢
  cases hanswers with
  | inadmissible => simp [Except.toOption]
  | changed => simp [Except.toOption]
  | again _ hfound =>
    by_cases hs : s = r.subject
    · simp [hs, hfound]
    · simp [hs]
  | made => exact remembered?_keep

theorem reverts_answer : Reverts answer := by
  intro e r err herr
  have hanswers := e.answers r
  rw [herr] at hanswers
  generalize (e.answer r).2 = e' at hanswers ⊢
  cases hanswers <;> rfl

/-! ### What a history remembers -/

/-- Requests with their answers, in order. -/
abbrev Log := List (Request × Except ModelError Piece)

/-- The first request for a subject that was given a piece, with the piece. -/
def first? (log : Log) (s : Subject) : Option (Request × Piece) :=
  log.findSome? fun x => if x.1.subject = s then x.2.toOption.map (x.1, ·) else none

/-- The owners and methods for which a delegator was given out. -/
def delegated (log : Log) : List MethodId :=
  (log.filter fun x => x.1.kind = .delegator && x.2.isOk).map (·.1.subject.2)

theorem first?_concat (log : Log) (r : Request) (a : Except ModelError Piece) (s : Subject) :
    first? (log ++ [(r, a)]) s =
      (first? log s).or (if r.subject = s then a.toOption.map (r, ·) else none) := by
  simp [first?, List.findSome?_append]

theorem first?_eq_none {log : Log} {s : Subject} :
    first? log s = none ↔ ∀ x ∈ log, x.1.subject = s → x.2.isOk = false := by
  rw [first?, List.findSome?_eq_none_iff]
  refine forall₂_congr fun x _ => ?_
  rcases x with ⟨r, _ | a⟩ <;> simp [Except.toOption, Except.isOk, Except.toBool]

/-- A memory as it is behind requests: what is remembered for a subject is the first piece that was
given out for it, which was made by the request that it was given to. -/
structure Recalls (log : Log) (e : EntryPoints) : Prop where
  remembered : ∀ s, e.remembered? s = (first? log s).map (·.2)
  made : ∀ {s q p}, first? log s = some (q, p) →
    q.subject = s ∧ ∃ self, q.method.self? = some self ∧ p = q.piece self

theorem recalls_empty : Recalls [] {} where
  remembered s := by rcases s with ⟨_ | _ | _, _⟩ <;> rfl
  made h := by cases h

theorem Recalls.answer {log : Log} {e : EntryPoints} (h : Recalls log e) (r : Request) :
    Recalls (log ++ [(r, (e.answer r).1)]) (e.answer r).2 where
  remembered s := by
    rw [first?_concat, remembered?_answer, h.remembered, Option.map_or]
    by_cases hs : s = r.subject
    · simp [hs, Function.comp_def]
    · simp [hs, Ne.symm hs]
  made {s q p} hfirst := by
    rw [first?_concat, Option.or_eq_some_iff] at hfirst
    -- the first answer is in the log already, or it is the one that was just given
    rcases hfirst with hold | ⟨hnone, hnew⟩
    · exact h.made hold
    · split at hnew
      next hs =>
        -- a subject without an answer so far is not remembered, so its piece was made now
        have hnothing : e.remembered? r.subject = none := by
          rw [h.remembered, hs, hnone]
          rfl
        have hanswers := e.answers r
        generalize (e.answer r).1 = a, (e.answer r).2 = e' at hanswers hnew
        cases hanswers with
        | inadmissible => cases hnew
        | changed => cases hnew
        | again _ hfound =>
          rw [hnothing] at hfound
          cases hfound
        | made _ hself =>
          cases hnew
          exact ⟨hs, _, hself, rfl⟩
      next => cases hnew

theorem recalls_after (rs : List Request) : Recalls (outcomes answer {} rs) (after answer {} rs) :=
  outcomes_induct (fun _ _ r h => h.answer r) recalls_empty rs

theorem remembered?_delegator {e : EntryPoints} {id : MethodId} :
    e.remembered? (.delegator, id) = none ↔ id ∉ e.delegators.map (·.1) := by
  rw [← lookup_eq_none_iff_notMem]
  simp [remembered?]

theorem delegators_nodup (rs : List Request) :
    ((after answer {} rs).delegators.map (·.1)).Nodup := by
  have hempty : (({} : EntryPoints).delegators.map (·.1)).Nodup := List.nodup_nil
  refine after_induct (P := fun e : EntryPoints => (e.delegators.map (·.1)).Nodup)
    (fun e r h => ?_) hempty rs
  have hanswers := e.answers r
  generalize (e.answer r).1 = a, (e.answer r).2 = e' at hanswers ⊢
  -- only a new delegator adds to the table, under a subject that was not there
  cases hanswers with
  | inadmissible => exact h
  | changed => exact h
  | again => exact h
  | made _ _ hnew =>
    obtain ⟨kind, owner, m⟩ := r
    cases kind with
    | typedef => exact h
    | superDelegator => exact h
    | delegator =>
      have hfresh := remembered?_delegator.1 hnew
      rw [keep, List.map_append, List.map_singleton, ← List.concat_eq_append]
      exact h.concat hfresh

/-! ### Same types, and checks that pass -/

/-- Two functions take the same types, in order, and return the same type. -/
def SameTypes (s t : Signature) : Prop :=
  s.params.map (·.key) = t.params.map (·.key) ∧ s.returns.key = t.returns.key

theorem compatible_iff {s t : Signature} : s.compatible t = true ↔ SameTypes s t := by
  simp [Signature.compatible, Signature.keys, SameTypes]

/-- The parameter that a super-delegator has in front is the same for all methods. -/
theorem compatible_piece {q r : Request} (hkind : q.kind = r.kind) (self : Variable) :
    (q.piece self).signature.compatible r.compared = true ↔ SameTypes q.method r.method := by
  obtain ⟨kind, owner, m⟩ := q
  obtain ⟨kind', owner', m'⟩ := r
  obtain rfl : kind = kind' := hkind
  rw [compatible_iff]
  cases kind with
  | typedef => exact Iff.rfl
  | delegator => exact Iff.rfl
  | superDelegator => simp [SameTypes, Request.piece, Request.superDelegator, Request.compared,
      Piece.signature, superSignature]

/-- Nothing is refused where the signature of a piece is derived from one that was checked. -/
theorem checkedSignature_eq {r : Request} (hr : r.Admissible) (hm : r.method.Made)
    (self : Variable) : r.checkedSignature = .ok (r.piece self).signature := by
  obtain ⟨kind, owner, m⟩ := r
  cases kind with
  | typedef => rfl
  | delegator => exact checkedDelegator_eq_ok hm.isIdentifier owner
  | superDelegator =>
    exact checkedSuperDelegator_eq_ok hm.isIdentifier (hm.checkParams_eq m.name) hm.plain.returns
      hr.reserved

/-! ### What requests are answered -/

section Answer

variable {earlier : List Request} {r : Request}

theorem answer_of_not_admissible (hr : ¬ r.Admissible) :
    ∃ err, ((after answer {} earlier).answer r).1 = .error err := by
  have hanswers := (after answer {} earlier).answers r
  cases hanswer : ((after answer {} earlier).answer r).1 with
  | error err => exact ⟨err, rfl⟩
  | ok p =>
    rw [hanswer] at hanswers
    generalize ((after answer {} earlier).answer r).2 = e' at hanswers
    cases hanswers with
    | again hadmissible => exact absurd hadmissible hr
    | made hadmissible => exact absurd hadmissible hr

theorem answer_of_first (hr : r.Admissible)
    (hfirst : first? (outcomes answer {} earlier) r.subject = none) :
    ∃ self, r.method.self? = some self ∧
      ((after answer {} earlier).answer r).1 = .ok (r.piece self) := by
  obtain ⟨self, hself⟩ := Option.isSome_iff_exists.1 hr.self
  refine ⟨self, hself, ?_⟩
  rw [answer_fst, (recalls_after _).remembered, hfirst, Request.reply,
    checkMethod_eq_ok.2 ⟨hr, hself⟩]
  rfl

theorem answer_of_again (hr : r.Admissible) {q : Request} {p : Piece}
    (hfirst : first? (outcomes answer {} earlier) r.subject = some (q, p)) :
    (SameTypes q.method r.method → ((after answer {} earlier).answer r).1 = .ok p) ∧
      (¬ SameTypes q.method r.method →
        ∃ err, ((after answer {} earlier).answer r).1 = .error err) := by
  obtain ⟨hsubject, self, -, rfl⟩ := (recalls_after _).made hfirst
  obtain ⟨first, hself⟩ := Option.isSome_iff_exists.1 hr.self
  have hkind : q.kind = r.kind := congrArg Prod.fst hsubject
  rw [answer_fst, (recalls_after _).remembered, hfirst, Request.reply,
    checkMethod_eq_ok.2 ⟨hr, hself⟩, ← compatible_piece hkind self]
  refine ⟨fun htypes => ?_, fun htypes => ⟨.entryChanged r.owner r.compared.name, ?_⟩⟩
  · simp [htypes, bind, Except.bind, pure, Except.pure]
  · simp [htypes, bind, Except.bind, throw, throwThe, MonadExceptOf.throw]

/-- A piece that was given out stays remembered, whatever is asked for later. -/
theorem remembered?_later {p : Piece} (h : ((after answer {} earlier).answer r).1 = .ok p)
    (later : List Request) :
    (after answer {} (earlier ++ r :: later)).remembered? r.subject = some p := by
  rw [after_append, after_cons]
  refine after_induct (P := fun e : EntryPoints => e.remembered? r.subject = some p)
    (fun e q hfound => ?_) ?_ later
  · rw [remembered?_answer, hfound, Option.some_or]
  · have hanswers := (after answer {} earlier).answers r
    rw [h] at hanswers
    generalize ((after answer {} earlier).answer r).2 = e' at hanswers ⊢
    cases hanswers with
    | again _ hfound => exact hfound
    | made _ _ hnew => simp [remembered?_keep, hnew]

end Answer

theorem outcomes_filter_subject (rs : List Request) (s : Subject) :
    outcomes answer {} (rs.filter (·.subject = s)) =
      (outcomes answer {} rs).filter (·.1.subject = s) := by
  refine outcomes_filter (fun e : EntryPoints => e.remembered? s) (fun e e' r hr hview => ?_)
    (fun e r hr => ?_) rfl rs
  · obtain rfl : r.subject = s := of_decide_eq_true hr
    have hsame : (e.answer r).1 = (e'.answer r).1 := by
      rw [answer_fst, answer_fst, hview]
    exact ⟨hsame, by rw [remembered?_answer, remembered?_answer, hview, hsame]⟩
  · have hs : s ≠ r.subject := fun hs => of_decide_eq_false hr hs.symm
    rw [remembered?_answer, if_neg hs, Option.or_none]

theorem mem_delegated {log : Log} {id : MethodId} :
    id ∈ delegated log ↔ first? log (.delegator, id) ≠ none := by
  rw [Ne, first?_eq_none, delegated, List.mem_map]
  constructor
  · rintro ⟨x, hx, rfl⟩ hnone
    obtain ⟨hmem, hx⟩ := List.mem_filter.1 hx
    rw [Bool.and_eq_true, decide_eq_true_eq] at hx
    have hfailed := hnone x hmem (Prod.ext hx.1 rfl)
    rw [hx.2] at hfailed
    cases hfailed
  · intro h
    push Not at h
    obtain ⟨x, hx, hsubject, hok⟩ := h
    have hkind : x.1.kind = .delegator := congrArg Prod.fst hsubject
    exact ⟨x, List.mem_filter.2 ⟨hx, by simpa [hkind] using hok⟩, congrArg Prod.snd hsubject⟩

theorem delegatorCount_after (rs : List Request) :
    (after answer {} rs).delegatorCount = (delegated (outcomes answer {} rs)).toFinset.card := by
  have hkeys : ((after answer {} rs).delegators.map (·.1)).toFinset =
      (delegated (outcomes answer {} rs)).toFinset := by
    ext id
    rw [List.mem_toFinset, List.mem_toFinset, mem_delegated, ← not_iff_not, not_not,
      ← remembered?_delegator, (recalls_after _).remembered, Option.map_eq_none_iff]
  rw [← hkeys, List.toFinset_card_of_nodup (delegators_nodup rs), List.length_map]
  rfl

/-- What becomes of a request behind any others. It is refused if its method has no object or uses a
reserved name. Otherwise it is given the first piece that was given out for its subject, which is
its own if there is none yet, and is refused if that piece was made for other types; no check of a
derived signature stands in its way, and the piece stays remembered. Refused requests can be taken
out of a history, as can all requests for other subjects, and the others are answered as they were.
Delegators are counted once for each owner and method that one was given out for. -/
theorem requests_answered :
    (∀ (earlier : List Request) (r : Request),
      let given := first? (outcomes answer {} earlier) r.subject
      let a := ((after answer {} earlier).answer r).1
      (¬ r.Admissible → ∃ err, a = .error err) ∧
      (r.Admissible → given = none → ∃ self, r.method.self? = some self ∧ a = .ok (r.piece self)) ∧
      (r.Admissible → ∀ q p, given = some (q, p) →
        (SameTypes q.method r.method → a = .ok p) ∧
          (¬ SameTypes q.method r.method → ∃ err, a = .error err)) ∧
      (r.Admissible → r.method.Made →
        ∀ self, r.checkedSignature = .ok (r.piece self).signature) ∧
      ∀ p, a = .ok p → ∀ later,
        (after answer {} (earlier ++ r :: later)).remembered? r.subject = some p) ∧
    (∀ (rs : List Request) (kept : Log), kept.Sublist (outcomes answer {} rs) →
      kept.filter (·.2.isOk) = (outcomes answer {} rs).filter (·.2.isOk) →
      outcomes answer {} (kept.map (·.1)) = kept) ∧
    (∀ (rs : List Request) (s : Subject),
      outcomes answer {} (rs.filter (·.subject = s)) =
        (outcomes answer {} rs).filter (·.1.subject = s)) ∧
    ∀ rs : List Request, (after answer {} rs).delegatorCount =
      (delegated (outcomes answer {} rs)).toFinset.card := by
  refine ⟨fun earlier r => ⟨answer_of_not_admissible, answer_of_first, fun hr q p => ?_,
    checkedSignature_eq, fun p => remembered?_later⟩, fun rs kept hsub hok => ?_,
    outcomes_filter_subject, delegatorCount_after⟩
  · exact answer_of_again hr
  · exact (outcomes_of_kept reverts_answer hsub hok).1

namespace Sample

/-- The parameter for the object. -/
def receiver : Variable :=
  { name := "_self", type := .void, pointer := true }

/-- A method that takes its object and one value more. -/
def step (name : String) (type : CType) : Signature where
  name := "step"
  params := [receiver, { name, type }]
  returns := .void
  role := .method

/-- A request for the delegator of such a method. -/
def ask (owner name : String) (type : CType) : Request where
  kind := .delegator
  owner := owner
  method := step name type

/-- The first parameter name is reserved. Of the others, two have the same types for one owner. -/
def requests : List Request :=
  [ask "Soma" "m_class" .int, ask "Soma" "dt" .int, ask "Axon" "n" (.primitive .double)]

theorem made_step : (step "delta" .int).Made := by
  have hdeclare : Signature.declare "step" (step "delta" .int).params .void .method =
      .ok (step "delta" .int) := rfl
  exact .declare hdeclare

theorem admissible_ask {owner name : String} {type : CType} (h : name ∉ Name.reserved) :
    (ask owner name type).Admissible := by
  refine ⟨rfl, fun p hp => ?_⟩
  rcases List.mem_cons.1 hp with rfl | hp
  · decide
  · rw [List.mem_singleton.1 hp]
    exact h

theorem outcomes_requests : outcomes answer {} requests =
    [(ask "Soma" "m_class" .int, .error (.entryParameterReserved "Soma" "step" "m_class")),
      (ask "Soma" "dt" .int, .ok ((ask "Soma" "dt" .int).piece receiver)),
      (ask "Axon" "n" (.primitive .double),
        .ok ((ask "Axon" "n" (.primitive .double)).piece receiver))] :=
  rfl

end Sample

open EntryPoints.Sample

theorem requests_answered_sample :
    ((after answer {} requests).answer (ask "Soma" "superclass" .int)).1.isOk = false ∧
      (∃ self, ((after answer {} requests).answer (ask "Dendrite" "dt" .int)).1 =
        .ok ((ask "Dendrite" "dt" .int).piece self)) ∧
      ((after answer {} requests).answer (ask "Soma" "delta" .int)).1 =
        .ok ((ask "Soma" "dt" .int).piece receiver) ∧
      ((after answer {} requests).answer (ask "Soma" "dt" .void)).1.isOk = false ∧
      (step "delta" .int).Made ∧
      (ask "Soma" "delta" .int).checkedSignature =
        .ok ((ask "Soma" "delta" .int).piece receiver).signature ∧
      (after answer {} (requests ++ [ask "Soma" "delta" .int, ask "Soma" "dt" .void])).remembered?
        (.delegator, "Soma", "step") = some ((ask "Soma" "dt" .int).piece receiver) ∧
      outcomes answer {} (requests.drop 1) = (outcomes answer {} requests).drop 1 ∧
      (after answer {} requests).delegatorCount = 2 := by
  obtain ⟨hrequest, hrefused, -, hcount⟩ := requests_answered
  have hadmissible : (ask "Soma" "delta" .int).Admissible := admissible_ask (by decide)
  have hreserved : ¬ (ask "Soma" "superclass" .int).Admissible := fun h =>
    h.reserved _ (List.mem_cons_of_mem _ List.mem_cons_self) (by decide)
  have hfirst : first? (outcomes answer {} requests) (.delegator, "Soma", "step") =
      some (ask "Soma" "dt" .int, (ask "Soma" "dt" .int).piece receiver) := rfl
  obtain ⟨err, herr⟩ := (hrequest requests (ask "Soma" "superclass" .int)).1 hreserved
  obtain ⟨self, -, hnew⟩ :=
    (hrequest requests (ask "Dendrite" "dt" .int)).2.1 (admissible_ask (by decide)) rfl
  obtain ⟨-, -, hagain, hchecked, hlater⟩ := hrequest requests (ask "Soma" "delta" .int)
  -- names of parameters may differ, their types may not
  have hsame := (hagain hadmissible _ _ hfirst).1 ⟨by decide, by decide⟩
  obtain ⟨err', herr'⟩ := ((hrequest requests (ask "Soma" "dt" .void)).2.2.1
    (admissible_ask (by decide)) _ _ hfirst).2 fun htypes => by
      have hne := htypes.1
      revert hne
      decide
  refine ⟨by rw [herr]; rfl, ⟨self, hnew⟩, hsame, by rw [herr']; rfl, made_step,
    hchecked hadmissible made_step receiver, hlater _ hsame [ask "Soma" "dt" .void], ?_, ?_⟩
  · exact hrefused requests _ (List.drop_sublist 1 _) rfl
  · rw [hcount, outcomes_requests]
    decide

end ClassForge.Class.EntryPoints

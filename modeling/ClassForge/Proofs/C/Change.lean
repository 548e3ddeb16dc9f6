import ClassForge.Proofs.C.Signature

/-!
# Changed signatures

After it was declared, a signature gets other names and roles, a storage class, and parameters in
front. What was checked at the declaration holds after any number of changes, with one exception. A
new role is given without a look at the parameters, so that a function without an object can be made
a method; it is none again when it gets another role or a pointer in front, and only then.
-/

namespace ClassForge.C

/-- Two declarations agree on a storage class when none of them says another than the result. -/
theorem Storage.join?_eq_some {a b c : Option Storage} (h : join? a b = some c) :
    (a = none ∨ a = c) ∧ (b = none ∨ b = c) ∧ (c = a ∨ c = b) := by
  cases a with
  | none => cases b <;> simp_all [join?]
  | some x =>
    cases b with
    | none => simp_all [join?]
    | some y =>
      by_cases hxy : x = y
      · simp_all [join?]
      · simp [join?, hxy] at h

namespace Signature

/-- A change to a signature. -/
inductive Change where
  | rename (name : String) (role : Role)
  | qualify (quals : Qualifiers)
  | lead (param : Variable)

/-- The signature after a change. -/
def Change.apply (s : Signature) : Change → Except TypeError Signature
  | rename name role => s.rename name role
  | qualify quals => s.qualify quals
  | lead param => s.withLeading param

/-- The signature after several changes, one behind the other. -/
def change (s : Signature) (cs : List Change) : Except TypeError Signature :=
  cs.foldlM Change.apply s

/-- What is checked of a signature, the object of a method aside. -/
structure Checked (s : Signature) : Prop where
  name : isIdentifier s.name = true
  storable : ∀ p ∈ s.params, p.isVoid = false ∧ p.quals.storage = none
  distinct : (s.params.map (·.name)).Nodup
  returns : s.returns.quals.storage = none

/-- The first parameter is a pointer. -/
def PointerFirst (s : Signature) : Prop :=
  ∃ p ps, s.params = p :: ps ∧ 0 < p.depth

/-- A method takes a pointer to its object first. -/
def TakesObject (s : Signature) : Prop :=
  s.role = .method → s.PointerFirst

/-- A change that leaves a method without an object as it is. -/
def Change.Keeps : Change → Prop
  | rename _ role => role = .method
  | qualify _ => True
  | lead _ => False

variable {s t u : Signature} {c : Change} {cs : List Change}

theorem isSome_self?_iff : s.self?.isSome = true ↔ s.PointerFirst := by
  unfold self? PointerFirst
  cases s.params with
  | nil => simp
  | cons p ps => by_cases hp : 0 < p.depth <;> simp [hp]

theorem change_cons : s.change (c :: cs) = .ok t ↔
    ∃ u, Change.apply s c = .ok u ∧ u.change cs = .ok t := by
  rw [change, List.foldlM_cons, bind_eq_ok]
  rfl

/-! ### What every change keeps -/

theorem Made.apply (hs : s.Made) (h : Change.apply s c = .ok t) : t.Made := by
  cases c with
  | rename => exact .rename hs h
  | qualify => exact .qualify hs h
  | lead => exact .withLeading hs h

theorem Made.change (hs : s.Made) (h : s.change cs = .ok t) : t.Made := by
  induction cs generalizing s with
  | nil =>
    cases h
    exact hs
  | cons c cs ih =>
    obtain ⟨u, hu, h⟩ := change_cons.1 h
    exact ih (hs.apply hu) h

theorem Made.checked (hs : s.Made) : s.Checked := by
  obtain ⟨hstorable, hdistinct⟩ := checkParams_eq_ok.1 (hs.checkParams_eq s.name)
  exact ⟨hs.isIdentifier, fun p hp => Variable.checkStorable_eq_ok.1 (hstorable p hp).1, hdistinct,
    hs.plain.returns⟩

/-! ### The storage class -/

theorem qualify_eq_ok {quals : Qualifiers} (h : s.qualify quals = .ok t) :
    quals.hasTypePart = false ∧ Storage.join? s.storage quals.storage = some t.storage := by
  unfold qualify at h
  split at h
  next => cases h
  next htype =>
    split at h
    next storage hjoin =>
      cases h
      exact ⟨by simpa using htype, hjoin⟩
    next => cases h

/-- How the storage class after the changes comes from the one before. -/
structure Carries (s : Signature) (cs : List Change) (t : Signature) : Prop where
  before : s.storage = none ∨ s.storage = t.storage
  given : ∀ quals, .qualify quals ∈ cs →
    quals.hasTypePart = false ∧ (quals.storage = none ∨ quals.storage = t.storage)
  source : t.storage = s.storage ∨ ∃ quals, .qualify quals ∈ cs ∧ quals.storage = t.storage

theorem carries_apply (h : Change.apply s c = .ok t) : Carries s [c] t := by
  -- only `qualify` touches qualifiers, and it joins the storage classes
  cases c with
  | rename =>
    obtain ⟨_, -, h⟩ := bind_eq_ok.1 h
    obtain rfl := pure_eq_ok.1 h
    exact ⟨.inr rfl, by simp, .inl rfl⟩
  | qualify quals =>
    obtain ⟨htype, hjoin⟩ := qualify_eq_ok h
    obtain ⟨hbefore, hgiven, hsource⟩ := Storage.join?_eq_some hjoin
    refine ⟨hbefore, fun quals' hmem => ?_, hsource.imp_right fun hsource => ?_⟩
    · cases List.mem_singleton.1 hmem
      exact ⟨htype, hgiven⟩
    · exact ⟨quals, List.mem_singleton_self _, hsource.symm⟩
  | lead =>
    obtain ⟨_, -, h⟩ := bind_eq_ok.1 h
    obtain rfl := pure_eq_ok.1 h
    exact ⟨.inr rfl, by simp, .inl rfl⟩

theorem Carries.trans {ds : List Change} (h : Carries s cs u) (h' : Carries u ds t) :
    Carries s (cs ++ ds) t where
  before := by
    -- a storage class that was set early is kept by all that follows
    rcases h.before with hnone | heq
    · exact .inl hnone
    · rw [heq]
      exact h'.before
  given := by
    intro quals hmem
    rcases List.mem_append.1 hmem with hmem | hmem
    · obtain ⟨htype, hstorage⟩ := h.given quals hmem
      refine ⟨htype, ?_⟩
      rcases hstorage with hnone | heq
      · exact .inl hnone
      · rw [heq]
        exact h'.before
    · exact h'.given quals hmem
  source := by
    rcases h'.source with heq | ⟨quals, hmem, heq⟩
    · rw [heq]
      exact h.source.imp_right fun ⟨quals, hmem, heq⟩ => ⟨quals, List.mem_append_left _ hmem, heq⟩
    · exact .inr ⟨quals, List.mem_append_right _ hmem, heq⟩

theorem carries_change (h : s.change cs = .ok t) : Carries s cs t := by
  induction cs generalizing s with
  | nil =>
    cases h
    exact ⟨.inr rfl, by simp, .inl rfl⟩
  | cons c cs ih =>
    obtain ⟨u, hu, h⟩ := change_cons.1 h
    exact (carries_apply hu).trans (ih h)

/-! ### The object of a method -/

theorem takesObject_of_declare {name : String} {params : List Variable} {returns : TypeUse}
    {role : Role} (h : declare name params returns role = .ok s) : s.TakesObject := by
  obtain ⟨-, -, -, hself, rfl⟩ := declare_eq_ok.1 h
  exact fun hrole => isSome_self?_iff.1 (hself hrole)

/-- How one change makes a method without an object: from one, or by a new role. -/
theorem not_takesObject_apply_iff (h : Change.apply s c = .ok t) :
    ¬t.TakesObject ↔
      ¬s.TakesObject ∧ c.Keeps ∨ ∃ name, c = .rename name .method ∧ ¬s.PointerFirst := by
  cases c with
  | rename name role =>
    obtain ⟨_, -, h⟩ := bind_eq_ok.1 h
    obtain rfl := pure_eq_ok.1 h
    by_cases hrole : role = .method
    · subst hrole
      -- the parameters are those from before, and the role is new
      have hnew : ¬TakesObject { s with name, role := .method } ↔ ¬s.PointerFirst := by
        simp [TakesObject, PointerFirst]
      rw [hnew]
      constructor
      · exact fun hfirst => .inr ⟨name, rfl, hfirst⟩
      · rintro (⟨hbefore, -⟩ | ⟨_, -, hfirst⟩)
        · exact fun hfirst => hbefore fun _ => hfirst
        · exact hfirst
    · simp [TakesObject, Change.Keeps, hrole]
  | qualify quals =>
    have hsame : t.TakesObject ↔ s.TakesObject := by
      rw [qualify_ok h]
      rfl
    simp [hsame, Change.Keeps]
  | lead param =>
    obtain ⟨w, hdeclare, h⟩ := bind_eq_ok.1 h
    obtain rfl := pure_eq_ok.1 h
    have hdeclared : w.TakesObject := takesObject_of_declare hdeclare
    have htakes : TakesObject { w with storage := s.storage } := hdeclared
    simp [Change.Keeps, htakes]

/-- How a run of changes makes a method without an object. -/
theorem not_takesObject_change_iff (h : s.change cs = .ok t) :
    ¬t.TakesObject ↔ (¬s.TakesObject ∧ ∀ c ∈ cs, c.Keeps) ∨
      ∃ front name back u, cs = front ++ .rename name .method :: back ∧
        s.change front = .ok u ∧ ¬u.PointerFirst ∧ ∀ c ∈ back, c.Keeps := by
  induction cs generalizing s with
  | nil =>
    cases h
    simp
  | cons c cs ih =>
    obtain ⟨v, hv, h⟩ := change_cons.1 h
    rw [ih h, not_takesObject_apply_iff hv]
    -- the renaming that breaks the condition is the first change, or one further on
    constructor
    · rintro (⟨⟨hs, hc⟩ | ⟨name, rfl, hfirst⟩, hcs⟩ | ⟨front, name, back, u, rfl, hu, hfirst, hback⟩)
      · exact .inl ⟨hs, List.forall_mem_cons.2 ⟨hc, hcs⟩⟩
      · exact .inr ⟨[], name, cs, s, rfl, rfl, hfirst, hcs⟩
      · exact .inr ⟨c :: front, name, back, u, rfl, change_cons.2 ⟨v, hv, hu⟩, hfirst, hback⟩
    · rintro (⟨hs, hcs⟩ | ⟨front, name, back, u, heq, hu, hfirst, hback⟩)
      · obtain ⟨hc, hcs⟩ := List.forall_mem_cons.1 hcs
        exact .inl ⟨.inl ⟨hs, hc⟩, hcs⟩
      · cases front with
        | nil =>
          cases heq
          cases hu
          exact .inl ⟨.inr ⟨name, rfl, hfirst⟩, hback⟩
        | cons d front =>
          cases heq
          obtain ⟨v', hv', hu⟩ := change_cons.1 hu
          cases hv.symm.trans hv'
          exact .inr ⟨front, name, back, u, rfl, hu, hfirst, hback⟩

/-- A signature that was declared and then changed, any number of times, has an identifier for its
name, parameters that can be stored under different names, and a result without a storage class.
Its own qualifiers are at most one storage class: that which the changes gave, none of which gave
another, or anything that belongs to a type. But it need not take the object of a method: it does
not just when some change made it a method with no pointer in the first place, and only changes that
leave it so came behind. -/
theorem changed_keeps {name : String} {params : List Variable} {returns : TypeUse} {role : Role}
    {s t : Signature} {cs : List Change} (hs : declare name params returns role = .ok s)
    (h : s.change cs = .ok t) :
    t.Checked ∧
      (∀ quals, .qualify quals ∈ cs →
        quals.hasTypePart = false ∧ (quals.storage = none ∨ quals.storage = t.storage)) ∧
      (t.storage = none ∨ ∃ quals, .qualify quals ∈ cs ∧ quals.storage = t.storage) ∧
      (¬t.TakesObject ↔ ∃ front name back u, cs = front ++ .rename name .method :: back ∧
        s.change front = .ok u ∧ ¬u.PointerFirst ∧ ∀ c ∈ back, c.Keeps) := by
  have hcarries := carries_change h
  have hstart : s.storage = none := by
    obtain ⟨-, -, -, rfl⟩ := declare_ok hs
    rfl
  refine ⟨((Made.declare hs).change h).checked, hcarries.given, ?_, ?_⟩
  · exact hcarries.source.imp_left fun heq => heq.trans hstart
  · rw [not_takesObject_change_iff h, or_iff_right]
    exact fun hnot => hnot.1 (takesObject_of_declare hs)

namespace Sample

/-- A function of a number, which takes no object. -/
def tick : Signature where
  name := "tick"
  params := [{ name := "dt", type := .primitive .double }]
  returns := .void
  role := .free

/-- Changes that make it a method, and give it a storage class and another name. -/
def toMethod : List Change :=
  [.rename "tock" .method, .qualify { storage := some .static }, .rename "tack" .method]

end Sample

open Sample

theorem changed_keeps_sample : ∃ t, declare tick.name tick.params tick.returns tick.role = .ok tick ∧
    tick.change toMethod = .ok t ∧ t.Checked ∧ t.storage = some .static ∧ ¬t.TakesObject := by
  have hs : declare tick.name tick.params tick.returns tick.role = .ok tick := rfl
  obtain ⟨t, h⟩ : ∃ t, tick.change toMethod = .ok t := ⟨_, rfl⟩
  obtain ⟨hchecked, hgiven, -, htakes⟩ := changed_keeps hs h
  have hstatic := (hgiven { storage := some .static } (by simp [toMethod])).2
  refine ⟨t, hs, h, hchecked, by simpa [eq_comm] using hstatic, htakes.2 ?_⟩
  refine ⟨[], "tock", _, tick, rfl, rfl, ?_, ?_⟩
  · rintro ⟨p, ps, hparams, hdepth⟩
    cases hparams
    cases hdepth
  · simp [Change.Keeps]

/-- A function of a number is made a method by a new role, although it takes no object. -/
theorem tick_made_method :
    declare tick.name tick.params tick.returns tick.role = .ok tick ∧
      ∃ t, tick.change [.rename "tock" .method] = .ok t ∧ ¬t.TakesObject := by
  refine ⟨rfl, _, rfl, fun htakes => ?_⟩
  obtain ⟨p, ps, hparams, hdepth⟩ := htakes rfl
  cases hparams
  cases hdepth

end Signature

end ClassForge.C

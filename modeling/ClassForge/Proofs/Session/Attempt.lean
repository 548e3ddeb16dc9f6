import ClassForge.Proofs.History
import ClassForge.Proofs.Module.Build
import ClassForge.Session

/-!
# Attempts at modules

For as long as a module can be refused, what is done to build it only reads the session. So a
module that is refused leaves the session as it was, and it makes no difference to the modules
behind it.
-/

namespace ClassForge.Session

open C ClassForge.Class ClassForge.Module MonadExcept

/-! ## Steps -/

namespace Step

variable {α β : Type} {x : Step α} {f : α → Step β}

/-- A step that leaves the session as it is. -/
def Reads (x : Step α) : Prop :=
  ∀ s, (x.on s).2 = s

/-- A step that refuses nothing. -/
def Succeeds (x : Step α) : Prop :=
  ∀ s, ∃ a s', x.on s = (.ok a, s')

/-- A step that leaves the session as it is where it refuses. -/
def Reverts (x : Step α) : Prop :=
  ∀ s e s', x.on s = (.error e, s') → s' = s

/-- The second of two steps runs on what the first one leaves, unless that refuses. -/
theorem on_bind (x : Step α) (f : α → Step β) (s : Session) :
    (x >>= f).on s =
      match x.on s with
      | (.ok a, s') => (f a).on s'
      | (.error e, s') => (.error e, s') := by
  unfold on
  rw [ExceptT.run_bind, StateT.run_bind, Id.run_bind]
  rcases (x.run.run s).run with ⟨_ | _, _⟩ <;> rfl

theorem on_get (s : Session) : (get : Step Session).on s = (.ok s, s) := rfl

theorem on_ofExcept (x : Except SessionError α) (s : Session) :
    (ofExcept x : Step α).on s = (x, s) := by
  cases x <;> rfl

/-- Two steps succeed when the second does on what the first one leaves. -/
theorem on_bind_eq_ok {b : β} {s s' : Session} :
    (x >>= f).on s = (.ok b, s') ↔ ∃ a s₁, x.on s = (.ok a, s₁) ∧ (f a).on s₁ = (.ok b, s') := by
  rw [on_bind]
  rcases x.on s with ⟨_ | _, _⟩ <;> simp

/-- A computation on no session comes before the next step. -/
theorem on_ofExcept_bind_eq_ok {y : Except SessionError α} {b : β} {s s' : Session} :
    ((ofExcept y : Step α) >>= f).on s = (.ok b, s') ↔
      ∃ a, y = .ok a ∧ (f a).on s = (.ok b, s') := by
  rw [on_bind, on_ofExcept]
  cases y <;> simp

theorem reads_get : Reads (get : Step Session) := fun _ => rfl

theorem reads_ofExcept (x : Except SessionError α) : Reads (ofExcept x) := by
  intro s
  rw [on_ofExcept]

theorem succeeds_pure (a : α) : Succeeds (pure a) := fun s => ⟨a, s, rfl⟩

theorem succeeds_modify (g : Session → Session) : Succeeds (modify g) := fun s => ⟨(), g s, rfl⟩

theorem Succeeds.bind (hx : Succeeds x) (hf : ∀ a, Succeeds (f a)) : Succeeds (x >>= f) := by
  intro s
  obtain ⟨a, s₁, hstep⟩ := hx s
  obtain ⟨b, s₂, hrest⟩ := hf a s₁
  exact ⟨b, s₂, on_bind_eq_ok.2 ⟨a, s₁, hstep, hrest⟩⟩

theorem succeeds_forM {γ : Type} {g : γ → Step PUnit} (hg : ∀ c, Succeeds (g c)) (cs : List γ) :
    Succeeds (cs.forM g) := by
  induction cs with
  | nil => exact succeeds_pure _
  | cons c cs ih => exact (hg c).bind fun _ => ih

theorem Succeeds.reverts (hx : Succeeds x) : Reverts x := by
  intro s e s' h
  obtain ⟨a, s₁, hstep⟩ := hx s
  rw [hstep] at h
  cases h

/-- Where a step only reads and the next one reverts, the two revert. -/
theorem Reads.bind (hx : Reads x) (hf : ∀ a, Reverts (f a)) : Reverts (x >>= f) := by
  intro s e s' h
  have hread := hx s
  rw [on_bind] at h
  split at h
  next a s₁ hstep =>
    rw [hstep] at hread
    exact (hf a s₁ e s' h).trans hread
  next e' s₁ hstep =>
    rw [hstep] at hread
    cases h
    exact hread

end Step

/-! ## One module -/

/-- All that is written to the session is written when nothing can be refused any more. -/
theorem reverts_buildModule (d : Descriptor) : (buildModule d).Reverts := by
  unfold buildModule
  -- the steps that can fail only read; from the claims on nothing fails
  refine Step.reads_get.bind fun s => ?_
  refine (Step.reads_ofExcept (s.checkNew d.module)).bind fun _ => ?_
  refine (Step.reads_ofExcept (s.imported d.module d.imports)).bind fun imports => ?_
  refine (Step.reads_ofExcept (ofModel (builderFor d imports))).bind fun b => ?_
  refine (Step.reads_ofExcept (ofModel b.build)).bind fun m => ?_
  refine (Step.reads_ofExcept _).bind fun owners => Step.Succeeds.reverts ?_
  have hregister : ∀ u : ClassUnit, (register m.name u.cls).Succeeds :=
    fun _ => Step.succeeds_modify _
  exact (Step.succeeds_modify _).bind fun _ =>
    (Step.succeeds_forM hregister m.classes).bind fun _ =>
      (Step.succeeds_modify _).bind fun _ => Step.succeeds_pure m

/-- The session with a module more. -/
def add (s : Session) (m : Module) (owners : Owners) : Session where
  classes := (m.classes.map fun u => { module := m.name, cls := u.cls }).reverse ++ s.classes
  modules := m.name :: s.modules
  owners := owners

theorem on_forM_register (module : String) (us : List ClassUnit) (s : Session) :
    (us.forM fun u => register module u.cls).on s = (.ok (), { s with
      classes := (us.map fun u => { module, cls := u.cls : Built }).reverse ++ s.classes }) := by
  induction us generalizing s with
  | nil => rfl
  | cons u us ih =>
    rw [List.map_cons, List.reverse_cons, List.append_assoc, List.singleton_append]
    exact Step.on_bind_eq_ok.2 ⟨(), _, rfl, ih _⟩

theorem ofModel_eq_ok {α : Type} {x : Except ModelError α} {a : α} :
    ofModel x = .ok a ↔ x = .ok a := by
  cases x <;> simp [ofModel]

theorem checkNew_eq_ok {s : Session} {module : String} :
    s.checkNew module = .ok () ↔ module ∉ s.modules := by
  unfold checkNew
  split <;> simp_all

/-- What a module that is not refused has passed, and what the session gains with it. -/
theorem attempt_eq_ok {s s' : Session} {d : Descriptor} {m : Module} :
    s.attempt d = (.ok m, s') ↔ ∃ imports b owners, d.module ∉ s.modules ∧
      s.imported d.module d.imports = .ok imports ∧ builderFor d imports = .ok b ∧
      b.build = .ok m ∧
      s.owners.claimAll (m.classes.map fun u => (u.name, unitEntryNames u)) = .ok owners ∧
      s' = s.add m owners := by
  -- the part that writes, as one change of the session
  have hwrites : ∀ (m' : Module) (owners : Owners),
      (do
        modify fun s => { s with owners }
        m'.classes.forM fun u => register m'.name u.cls
        modify fun s => { s with modules := m'.name :: s.modules }
        return m' : Step Module).on s = (.ok m', s.add m' owners) := by
    intro m' owners
    refine Step.on_bind_eq_ok.2 ⟨(), _, rfl, ?_⟩
    exact Step.on_bind_eq_ok.2 ⟨(), _, on_forM_register m'.name m'.classes _, rfl⟩
  unfold attempt buildModule
  rw [Step.on_bind, Step.on_get]
  simp only [Step.on_ofExcept_bind_eq_ok, ofModel_eq_ok, hwrites, Prod.mk.injEq, Except.ok.injEq]
  constructor
  · rintro ⟨⟨⟩, hnew, imports, himports, b, hb, m', hbuild, owners, hclaims, rfl, rfl⟩
    exact ⟨imports, b, owners, checkNew_eq_ok.1 hnew, himports, hb, hbuild, hclaims, rfl⟩
  · rintro ⟨imports, b, owners, hnew, himports, hb, hbuild, hclaims, rfl⟩
    exact ⟨(), checkNew_eq_ok.2 hnew, imports, himports, b, hb, m, hbuild, owners, hclaims, rfl,
      rfl⟩

/-- The second module of one name is refused at once. -/
theorem attempt_of_mem {s : Session} {d : Descriptor} (h : d.module ∈ s.modules) :
    s.attempt d = (.error (.duplicateModule d.module), s) := by
  have hknown : s.checkNew d.module = .error (.duplicateModule d.module) := if_pos h
  simp [attempt, buildModule, Step.on_bind, Step.on_get, Step.on_ofExcept, hknown]

/-! ## Several modules -/

/-- What becomes of each of several descriptors, one after the other, whatever became of those in
front. -/
abbrev outcomes (s : Session) (ds : List Descriptor) :
    List (Descriptor × Except SessionError Module) :=
  History.outcomes attempt s ds

/-- The session behind several descriptors. -/
abbrev after (s : Session) (ds : List Descriptor) : Session :=
  History.after attempt s ds

/-- A module that is refused leaves the session as it was. So for any modules, some of those that
are refused can be taken out, and nothing changes for those that are kept: each is built as it was
before, or refused for the same reason. -/
theorem refused_leave_no_trace :
    (∀ (s s' : Session) (d : Descriptor) (e : SessionError),
      s.attempt d = (.error e, s') → s' = s) ∧
    ∀ (s : Session) (ds : List Descriptor) (kept : List (Descriptor × Except SessionError Module)),
      kept.Sublist (s.outcomes ds) →
      kept.filter (·.2.isOk) = (s.outcomes ds).filter (·.2.isOk) →
      s.outcomes (kept.map (·.1)) = kept ∧ s.after (kept.map (·.1)) = s.after ds := by
  have hrefused : ∀ (s s' : Session) (d : Descriptor) (e : SessionError),
      s.attempt d = (.error e, s') → s' = s :=
    fun s s' d e h => reverts_buildModule d s e s' h
  have hreverts : History.Reverts attempt :=
    fun s d e h => hrefused s _ d e (Prod.ext h rfl)
  exact ⟨hrefused, fun _ _ _ => History.outcomes_of_kept hreverts⟩

namespace Sample

/-- A module without classes. -/
def engine : Descriptor where
  module := "engine"

/-- A module that needs a class which no module has. -/
def rig : Descriptor where
  module := "rig"
  imports := ["Motor"]

theorem attempt_engine : ∃ m s, ({} : Session).attempt engine = (.ok m, s) ∧
    s.modules = ["engine"] ∧ s.classes = [] := by
  obtain ⟨m, hbuild, hname, hclasses⟩ : ∃ m,
      ({ config := { name := "engine" } } : Builder).build = .ok m ∧
        m.name = "engine" ∧ m.classes.isEmpty = true := by
    have hsorted : sortByName ({ config := { name := "engine" } } : Builder).scope = [rootClass] :=
      List.mergeSort_singleton rootClass
    refine exists_of_any_toOption ?_
    rw [Builder.build, hsorted]
    decide +kernel
  obtain hclasses := List.isEmpty_iff.1 hclasses
  refine ⟨m, _, attempt_eq_ok.2 ⟨[], _, {}, List.not_mem_nil, rfl, rfl, hbuild, ?_, rfl⟩, ?_, ?_⟩
  · rw [hclasses]
    rfl
  · rw [add, hname]
  · rw [add, hclasses]
    rfl

end Sample

theorem refused_leave_no_trace_sample : ∃ m s,
    ({} : Session).attempt Sample.engine = (.ok m, s) ∧
    s.attempt Sample.engine = (.error (.duplicateModule "engine"), s) ∧
    ({} : Session).outcomes [Sample.engine, Sample.rig] =
      [(Sample.engine, .ok m), (Sample.rig, .error (.unknownImport "rig" "Motor"))] := by
  obtain ⟨m, s, hbuild, hmodules, hclasses⟩ := Sample.attempt_engine
  have htwice : s.attempt Sample.engine = (.error (.duplicateModule "engine"), s) := by
    apply attempt_of_mem
    rw [hmodules]
    exact List.mem_singleton_self _
  have hunknown : s.attempt Sample.rig = (.error (.unknownImport "rig" "Motor"), s) := by
    have hnew : s.checkNew "rig" = .ok () := checkNew_eq_ok.2 (by simp [hmodules])
    have hmissing : s.imported "rig" ["Motor"] = .error (.unknownImport "rig" "Motor") := by
      simp [imported, built?, hclasses]
    simp [attempt, buildModule, Step.on_bind, Step.on_get, Step.on_ofExcept, Sample.rig, hnew,
      hmissing]
  obtain ⟨-, hthin⟩ := refused_leave_no_trace
  have houtcomes : ({} : Session).outcomes [Sample.engine, Sample.engine, Sample.rig] =
      [(Sample.engine, .ok m), (Sample.engine, .error (.duplicateModule "engine")),
        (Sample.rig, .error (.unknownImport "rig" "Motor"))] := by
    simp only [History.outcomes, hbuild, htwice, hunknown]
  refine ⟨m, s, hbuild, htwice, (hthin {} [Sample.engine, Sample.engine, Sample.rig]
    [(Sample.engine, .ok m), (Sample.rig, .error (.unknownImport "rig" "Motor"))] ?_ ?_).1⟩
  · rw [houtcomes]
    exact .cons_cons _ (.cons _ (.refl _))
  · rw [houtcomes]
    rfl

end ClassForge.Session

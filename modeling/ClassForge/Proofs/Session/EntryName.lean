import ClassForge.Proofs.Module.Clash
import ClassForge.Proofs.Module.Registration
import ClassForge.Proofs.Session.Attempt

/-!
# Entry points of a session's modules

Over a session each entry point has an owner, and the owner is kept by the name of the class that
introduces it. So two modules that were built define one public function only where they have
classes of one name: the class that was built first does not refuse the second one's claim.
-/

namespace ClassForge.Session

open C ClassForge.Class ClassForge.Module

/-! ## What a module is built from -/

/-- What each declaration keeps of a builder, several of them keep. -/
theorem declareAll_keeps {α β : Type} {g : Builder → β}
    {declare : Builder → α → Except ModelError Builder}
    (hdeclare : ∀ {b a b'}, declare b a = .ok b' → g b' = g b) {as : List α} {b b' : Builder}
    (h : declareAll declare b as = .ok b') : g b' = g b := by
  induction as generalizing b with
  | nil =>
    cases h
    rfl
  | cons a as ih =>
    obtain ⟨b₁, hfirst, h⟩ := bind_eq_ok.1 h
    rw [ih h, hdeclare hfirst]

theorem declareGlobal_keeps {b b' : Builder} {v : Variable} {policy : Policy}
    (h : b.declareGlobal v policy = .ok b') : (b'.config, b'.imports) = (b.config, b.imports) := by
  obtain ⟨-, -, -, rfl⟩ := Builder.declareGlobal_eq_ok.1 h
  rfl

theorem declareFunction_keeps {b b' : Builder} {f : Module.Function} {policy : Policy}
    (h : b.declareFunction f policy = .ok b') :
    (b'.config, b'.imports) = (b.config, b.imports) := by
  obtain ⟨-, -, -, rfl⟩ := Builder.declareFunction_eq_ok.1 h
  rfl

/-- A module has the settings that its descriptor says, with the headers of its imports, and imports
the classes that the descriptor names. -/
theorem builderFor_ok {d : Descriptor} {imports : List Built} {b : Builder}
    (h : builderFor d imports = .ok b) :
    b.config = includeHeaders d.config imports ∧ b.imports = imports.map (·.cls) := by
  obtain ⟨scope, -, h⟩ := bind_eq_ok.1 h
  obtain ⟨policy, -, h⟩ := bind_eq_ok.1 h
  obtain ⟨drafts, -, h⟩ := bind_eq_ok.1 h
  obtain ⟨globals, -, h⟩ := bind_eq_ok.1 h
  obtain ⟨b₁, hglobals, h⟩ := bind_eq_ok.1 h
  obtain ⟨functions, -, hfunctions⟩ := bind_eq_ok.1 h
  exact Prod.mk.inj ((declareAll_keeps declareFunction_keeps hfunctions).trans
    (declareAll_keeps declareGlobal_keeps hglobals))

/-- They are classes of the session. -/
theorem imported_ok {s : Session} {module : String} {names : List String} {imports : List Built}
    (h : s.imported module names = .ok imports) : ∀ b ∈ imports, b ∈ s.classes := by
  induction names generalizing imports with
  | nil =>
    cases h
    simp
  | cons name names ih =>
    unfold imported at h
    split at h
    next => cases h
    next b hb =>
      obtain ⟨rest, hrest, rfl⟩ := map_eq_ok.1 h
      exact List.forall_mem_cons.2 ⟨List.mem_of_find?_eq_some hb, ih hrest⟩

/-! ## What a session knows of the modules in front -/

/-- The names of a module's delegators and super-delegators. -/
def publicNames (m : Module) : List String :=
  m.classes.flatMap unitEntryNames

theorem publicNames_eq (m : Module) : publicNames m =
    (m.classes.map fun u => (u.name, unitEntryNames u)).flatMap (·.2) := by
  rw [publicNames, List.flatMap_map]

/-- What holds of a session behind the modules `ms`: its classes can be imported, and it has the
owners of all that the modules make public. Within a module the names are different. -/
structure Accounts (s : Session) (ms : List Module) : Prop where
  available : ∀ b ∈ s.classes, Available b.cls
  owned : ∀ m ∈ ms, ∀ u ∈ m.classes, ∀ n ∈ unitEntryNames u, s.owners.owner? n = some u.name
  nodup : ∀ m ∈ ms, (publicNames m).Nodup

theorem accounts_empty : Accounts {} [] where
  available _ hb := absurd hb List.not_mem_nil
  owned _ hm := absurd hm List.not_mem_nil
  nodup _ hm := absurd hm List.not_mem_nil

namespace Accounts

variable {s s' : Session} {ms : List Module} {d : Descriptor}

/-- A module that is built keeps the account, with what it adds. -/
theorem build {m : Module} (h : Accounts s ms) (hbuild : s.attempt d = (.ok m, s')) :
    Accounts s' (ms ++ [m]) := by
  obtain ⟨imports, b, owners, -, himported, hb, hm, hclaims, rfl⟩ := attempt_eq_ok.1 hbuild
  have himports : ∀ c ∈ b.imports, Available c := by
    intro c hc
    rw [(builderFor_ok hb).2] at hc
    obtain ⟨x, hx, rfl⟩ := List.mem_map.1 hc
    exact h.available x (imported_ok himported x hx)
  have howner := Owners.claimAll_ok hclaims
  -- what held of the earlier modules still does, and the claims account for the new one
  refine ⟨fun x hx => ?_, fun m' hm' u hu n hn => ?_, fun m' hm' => ?_⟩
  · rcases List.mem_append.1 hx with hnew | hold
    · obtain ⟨u, hu, rfl⟩ := List.mem_map.1 (List.mem_reverse.1 hnew)
      exact .built himports hm hu
    · exact h.available x hold
  · refine (howner n u.name).2 ?_
    rcases List.mem_append.1 hm' with hold | hnew
    · exact .inl (h.owned m' hold u hu n hn)
    · obtain rfl := List.mem_singleton.1 hnew
      exact .inr ⟨unitEntryNames u, List.mem_map_of_mem hu, hn⟩
  · rcases List.mem_append.1 hm' with hold | hnew
    · exact h.nodup m' hold
    · obtain rfl := List.mem_singleton.1 hnew
      obtain ⟨stages⟩ := build_ok hm
      have hnames := stages.entryNames_nodup fun c hc => (himports c hc).sound.lineage
      simp only [List.map_append] at hnames
      exact hnames

/-- A module that is refused changes nothing. -/
theorem refuse {e : SessionError} (h : Accounts s ms) (hrefused : s.attempt d = (.error e, s')) :
    Accounts s' ms := by
  obtain rfl := reverts_buildModule d s e s' hrefused
  exact h

end Accounts

/-- The modules that are built from descriptors, without those that are refused. -/
def builtModules (s : Session) (ds : List Descriptor) : List Module :=
  (s.outcomes ds).filterMap (·.2.toOption)

/-- A session has the account of all modules that it built, whatever it refused between them. -/
theorem Accounts.after {s : Session} {ms : List Module} (h : Accounts s ms)
    (ds : List Descriptor) : Accounts (s.after ds) (ms ++ s.builtModules ds) := by
  have hstep : ∀ (log : List (Descriptor × Except SessionError Module)) (s : Session)
      (d : Descriptor), Accounts s (ms ++ log.filterMap (·.2.toOption)) → Accounts (s.attempt d).2
        (ms ++ (log ++ [(d, (s.attempt d).1)]).filterMap (·.2.toOption)) := by
    intro log s d hlog
    rcases hattempt : s.attempt d with ⟨e | m, s₁⟩
    · simpa [Except.toOption] using hlog.refuse hattempt
    · simpa [Except.toOption] using hlog.build hattempt
  refine History.outcomes_induct
    (P := fun log s => Accounts s (ms ++ log.filterMap (·.2.toOption))) hstep ?_ ds
  exact (List.append_nil ms).symm ▸ h

/-! ## Public functions -/

/-- Two of a session's modules define a public function of one name only where both have a class of
one name that introduces it. So all names are different just when no two of the modules have such
classes; within a module they always are. -/
theorem publicNames_nodup_iff (ds : List Descriptor) :
    (∀ m ∈ ({} : Session).builtModules ds, (publicNames m).Nodup) ∧
    (∀ m ∈ ({} : Session).builtModules ds, ∀ m' ∈ ({} : Session).builtModules ds,
      ∀ u ∈ m.classes, ∀ u' ∈ m'.classes, ∀ n ∈ unitEntryNames u, n ∈ unitEntryNames u' →
        u.name = u'.name) ∧
    (((({} : Session).builtModules ds).flatMap publicNames).Nodup ↔
      (({} : Session).builtModules ds).Pairwise fun m m' =>
        ∀ u ∈ m.classes, ∀ u' ∈ m'.classes, u.name = u'.name →
          ∀ n ∈ unitEntryNames u, n ∉ unitEntryNames u') := by
  have haccounts := accounts_empty.after ds
  rw [List.nil_append] at haccounts
  -- each name has one owner in the session, and owners are names of classes
  have hname : ∀ m ∈ ({} : Session).builtModules ds, ∀ m' ∈ ({} : Session).builtModules ds,
      ∀ u ∈ m.classes, ∀ u' ∈ m'.classes, ∀ n ∈ unitEntryNames u, n ∈ unitEntryNames u' →
        u.name = u'.name := by
    intro m hm m' hm' u hu u' hu' n hn hn'
    have howner := haccounts.owned m hm u hu n hn
    rw [haccounts.owned m' hm' u' hu' n hn'] at howner
    exact (Option.some.inj howner).symm
  refine ⟨haccounts.nodup, hname, ?_⟩
  rw [List.nodup_flatMap, and_iff_right haccounts.nodup]
  constructor
  · intro hdisjoint
    apply hdisjoint.imp
    intro m m' hmm u hu u' hu' _ n hn hn'
    exact hmm (List.mem_flatMap.2 ⟨u, hu, hn⟩) (List.mem_flatMap.2 ⟨u', hu', hn'⟩)
  · intro hapart
    apply hapart.imp_of_mem
    intro m m' hm hm' hmm n hn hn'
    obtain ⟨u, hu, hn⟩ := List.mem_flatMap.1 hn
    obtain ⟨u', hu', hn'⟩ := List.mem_flatMap.1 hn'
    exact hmm u hu u' hu' (hname m hm m' hm' u hu u' hu' n hn hn') n hn hn'

namespace Sample

/-- The entry of a method that only takes its object. -/
def methodEntry (name : String) : Descriptor.FunctionEntry where
  name := name
  params := [{ name := "_self", type := "void*" }]

/-- A module of one class, which leaves its one method to others. -/
def single (module cls method : String) : Descriptor where
  module := module
  classes := [{ name := cls, isAbstract := true, methods := [methodEntry method] }]

def singleBuilder (module cls method : String) : Builder where
  config := { name := module }
  drafts :=
    [{ name := cls
       methods :=
        [{ signature :=
            { name := method
              params := [{ name := "_self", type := .pointer .void 1 }]
              returns := .void
              role := .method }
           supply := .nothing }]
       isAbstract := true }]

/-- Two modules with a class of one name and a method of one name, and one that has neither. -/
def singles : List (String × String × String) :=
  [("left", "Channel", "step"), ("right", "Channel", "step"), ("valves", "Valve", "turn")]

theorem builderFor_single : ∀ x ∈ singles,
    builderFor (single x.1 x.2.1 x.2.2) [] = .ok (singleBuilder x.1 x.2.1 x.2.2) := by
  intro x hx
  obtain ⟨drafts, hdrafts, rfl⟩ := exists_of_any_toOption
    (x := do
      let scope ← ModelError.ofType ((single x.1 x.2.1 x.2.2).scope [])
      (single x.1 x.2.1 x.2.2).drafts scope)
    (P := (· = (singleBuilder x.1 x.2.1 x.2.2).drafts)) (by revert x; decide +kernel)
  obtain ⟨scope, hscope, hdrafts⟩ := bind_eq_ok.1 hdrafts
  exact bind_eq_ok.2 ⟨scope, hscope, bind_eq_ok.2 ⟨_, rfl, bind_eq_ok.2 ⟨_, hdrafts, rfl⟩⟩⟩

/-- Each of the modules is built where its class may own what it introduces. -/
theorem attempt_single : ∀ x ∈ singles, ∀ (s : Session) (owners : Owners), x.1 ∉ s.modules →
    s.owners.claimAll [(x.2.1, [x.2.2, "super_" ++ x.2.2])] = .ok owners →
    ∃ m, s.attempt (single x.1 x.2.1 x.2.2) = (.ok m, s.add m owners) ∧ m.name = x.1 ∧
      m.classes.map (fun u => (u.name, unitEntryNames u))
        = [(x.2.1, [x.2.2, "super_" ++ x.2.2])] := by
  intro x hx s owners hnew hclaims
  obtain ⟨m, hbuild, hname, hunits⟩ : ∃ m, (singleBuilder x.1 x.2.1 x.2.2).build = .ok m ∧
      m.name = x.1 ∧ m.classes.map (fun u => (u.name, unitEntryNames u))
        = [(x.2.1, [x.2.2, "super_" ++ x.2.2])] := by
    have hsorted : sortByName (singleBuilder x.1 x.2.1 x.2.2).scope = [rootClass] :=
      List.mergeSort_singleton rootClass
    refine exists_of_any_toOption ?_
    rw [Builder.build, hsorted]
    -- nothing may depend on `x` when the builds of the list are evaluated
    clear hsorted hclaims hnew
    revert x
    decide +kernel
  refine ⟨m, attempt_eq_ok.2 ⟨[], _, owners, hnew, rfl, builderFor_single x hx, hbuild, ?_, rfl⟩,
    hname, hunits⟩
  rw [hunits]
  exact hclaims

/-- The first of the modules, in a new session. -/
theorem attempt_left : ∃ m s, ({} : Session).attempt (single "left" "Channel" "step") = (.ok m, s) ∧
    m.classes.map (fun u => (u.name, unitEntryNames u)) = [("Channel", ["step", "super_step"])] ∧
    s.modules = ["left"] ∧ s.owners = ⟨[("step", "Channel"), ("super_step", "Channel")]⟩ := by
  obtain ⟨m, hattempt, hname, hunits⟩ := attempt_single _ (.head _) {} _ List.not_mem_nil rfl
  refine ⟨m, _, hattempt, hunits, ?_, rfl⟩
  rw [add, hname]

/-- The other two, behind it: one claims what its class owns, the other what nobody does. -/
theorem attempt_right {s : Session} (hmodules : s.modules = ["left"])
    (howners : s.owners = ⟨[("step", "Channel"), ("super_step", "Channel")]⟩) :
    (∃ m s', s.attempt (single "right" "Channel" "step") = (.ok m, s') ∧
      m.classes.map (fun u => (u.name, unitEntryNames u))
        = [("Channel", ["step", "super_step"])]) ∧
    ∃ m s', s.attempt (single "valves" "Valve" "turn") = (.ok m, s') ∧
      m.classes.map (fun u => (u.name, unitEntryNames u))
        = [("Valve", ["turn", "super_turn"])] := by
  constructor
  · obtain ⟨m, hattempt, -, hunits⟩ := attempt_single ("right", "Channel", "step") (by decide) s
      s.owners (by rw [hmodules]; decide) (by rw [howners]; rfl)
    exact ⟨m, _, hattempt, hunits⟩
  · obtain ⟨m, hattempt, -, hunits⟩ := attempt_single ("valves", "Valve", "turn") (by decide) s _
      (by rw [hmodules]; decide) (by rw [howners]; rfl)
    exact ⟨m, _, hattempt, hunits⟩

end Sample

/-- The first two of the modules are both built, and each defines the function `step`. -/
theorem step_public_twice : ¬ ((({} : Session).builtModules
    [Sample.single "left" "Channel" "step", Sample.single "right" "Channel" "step"]).flatMap
      publicNames).Nodup := by
  obtain ⟨m, s, hleft, hunits, hmodules, howners⟩ := Sample.attempt_left
  obtain ⟨⟨m', s', hright, hunits'⟩, -⟩ := Sample.attempt_right hmodules howners
  have hbuilt : ({} : Session).builtModules
      [Sample.single "left" "Channel" "step", Sample.single "right" "Channel" "step"]
        = [m, m'] := by
    rw [builtModules, outcomes, History.outcomes_cons, History.outcomes_cons, hleft, hright]
    rfl
  rw [hbuilt, List.flatMap_cons, List.flatMap_singleton, publicNames_eq, publicNames_eq, hunits,
    hunits']
  decide

/-- Where the second module is refused and the third defines another class, all names differ. -/
theorem publicNames_nodup_iff_sample : ((({} : Session).builtModules
    [Sample.single "left" "Channel" "step", Sample.single "left" "Channel" "step",
      Sample.single "valves" "Valve" "turn"]).flatMap publicNames).Nodup := by
  obtain ⟨m, s, hleft, hunits, hmodules, howners⟩ := Sample.attempt_left
  obtain ⟨-, m', s', hvalves, hunits'⟩ := Sample.attempt_right hmodules howners
  have htwice : s.attempt (Sample.single "left" "Channel" "step")
      = (.error (.duplicateModule "left"), s) := by
    apply attempt_of_mem
    rw [hmodules]
    exact List.mem_singleton_self _
  apply (publicNames_nodup_iff _).2.2.2
  rw [builtModules, outcomes, History.outcomes_cons, History.outcomes_cons,
    History.outcomes_cons, hleft, htwice, hvalves]
  -- the two modules that were built have classes of different names
  refine List.pairwise_pair.2 ?_
  intro u hu u' hu' hname
  have hmem := List.mem_map_of_mem (f := fun u : ClassUnit => (u.name, unitEntryNames u)) hu
  have hmem' := List.mem_map_of_mem (f := fun u : ClassUnit => (u.name, unitEntryNames u)) hu'
  rw [hunits, List.mem_singleton, Prod.mk.injEq] at hmem
  rw [hunits', List.mem_singleton, Prod.mk.injEq] at hmem'
  rw [hmem.1, hmem'.1] at hname
  exact absurd hname (by decide)

end ClassForge.Session

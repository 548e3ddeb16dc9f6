import ClassForge.Module.Builder
import ClassForge.Proofs.Class.Lineage
import ClassForge.Proofs.Class.Order
import Mathlib.Data.List.Forall2

/-!
# Modules that build

What a successful build says about its stages, and that the classes of a module come from the root
along chains that repeat no name. `Available` are the classes that a module can import: those that
earlier builds made.
-/

namespace ClassForge

open C

/-! ## Chains -/

namespace Class

/-- The chain of a class above is the rest of the chain. -/
theorem chain_suffix {a c : Class} (h : a ∈ c.chain) : a.chain <:+ c.chain := by
  induction c with
  | root info =>
    obtain rfl := List.mem_singleton.1 h
    exact List.suffix_refl _
  | derived info base ih =>
    obtain rfl | h := List.mem_cons.1 h
    · exact List.suffix_refl _
    · exact (ih h).trans (List.suffix_cons _ _)

/-- A class comes from the root, and no two classes of its chain share a name. -/
structure Sound (c : Class) : Prop where
  lineage : ∃ ds, Lineage ds c
  names : (c.chain.map (·.name)).Nodup

theorem sound_rootClass : rootClass.Sound :=
  ⟨⟨[], .root⟩, by decide⟩

/-- So it is with the classes above. -/
theorem Sound.of_mem_chain {a c : Class} (h : c.Sound) (ha : a ∈ c.chain) : a.Sound := by
  obtain ⟨ds, hlin⟩ := h.lineage
  obtain ⟨ds', -, hlin'⟩ := hlin.of_mem_chain ha
  exact ⟨⟨ds', hlin'⟩, h.names.sublist ((chain_suffix ha).sublist.map _)⟩

end Class

namespace Module

open ClassForge.Class

/-! ## The scope of a build -/

/-- The classes of a scope have lineages, and the scope has a class for each name above. -/
def Rooted (scope : List Class) : Prop :=
  ∀ c ∈ scope, (∃ ds, Lineage ds c) ∧ ∀ a ∈ c.chain, a.name ∈ scope.map (·.name)

/-- The classes of a scope come from the root, and the scope has a class for each name above. -/
def Closed (scope : List Class) : Prop :=
  ∀ c ∈ scope, c.Sound ∧ ∀ a ∈ c.chain, a.name ∈ scope.map (·.name)

theorem Closed.rooted {scope : List Class} (h : Closed scope) : Rooted scope :=
  fun c hc => ⟨(h c hc).1.lineage, (h c hc).2⟩

/-- What a scope holds once classes are added: nothing else, and a class for each of their names. -/
theorem addToScope_spec (scope cs : List Class) :
    (∀ c ∈ addToScope scope cs, c ∈ scope ∨ c ∈ cs) ∧ scope ⊆ addToScope scope cs ∧
      ∀ c ∈ cs, c.name ∈ (addToScope scope cs).map (·.name) := by
  induction cs generalizing scope with
  | nil => simp [addToScope]
  | cons c cs ih =>
    simp only [addToScope]
    -- a class is passed over only where its name is in the scope already
    by_cases hknown : scope.any (·.name == c.name)
    · obtain ⟨honly, hsub, hnames⟩ := ih scope
      obtain ⟨x, hx, hxn⟩ := List.any_eq_true.1 hknown
      rw [if_pos hknown]
      refine ⟨fun y hy => (honly y hy).imp_right (List.mem_cons_of_mem _), hsub, ?_⟩
      rintro y (_ | ⟨_, hy⟩)
      · exact List.mem_map.2 ⟨x, hsub hx, by simpa using hxn⟩
      · exact hnames y hy
    · obtain ⟨honly, hsub, hnames⟩ := ih (scope ++ [c])
      rw [if_neg hknown]
      refine ⟨fun y hy => ?_, fun y hy => hsub (List.mem_append_left _ hy), ?_⟩
      · rcases honly y hy with hmem | hmem
        · exact (List.mem_append.1 hmem).imp_right
            fun hone => List.mem_cons.2 (.inl (List.mem_singleton.1 hone))
        · exact .inr (List.mem_cons_of_mem _ hmem)
      · rintro y (_ | ⟨_, hy⟩)
        · exact List.mem_map_of_mem (hsub (by simp))
        · exact hnames y hy

theorem addToScope_names_nodup {scope : List Class} (h : (scope.map (·.name)).Nodup)
    (cs : List Class) : ((addToScope scope cs).map (·.name)).Nodup := by
  induction cs generalizing scope with
  | nil => exact h
  | cons c cs ih =>
    rw [addToScope]
    apply ih
    by_cases hknown : scope.any (·.name == c.name)
    · rwa [if_pos hknown]
    · rw [if_neg hknown, List.map_append]
      refine h.append (List.nodup_singleton _) fun n hn hc => hknown ?_
      obtain ⟨x, hx, hname⟩ := List.mem_map.1 hn
      obtain rfl := List.mem_singleton.1 hc
      exact List.any_eq_true.2 ⟨x, hx, by simpa using hname⟩

theorem scope_names_nodup (b : Builder) : (b.scope.map (·.name)).Nodup := by
  apply addToScope_names_nodup
  exact List.nodup_singleton _

/-- What the root and the imported classes have, with all above them, every class in scope has; and
the scope has a class for each name above. -/
theorem forall_mem_scope {b : Builder} {P : Class → Prop} (hroot : P rootClass)
    (himports : ∀ c ∈ b.imports, ∀ a ∈ c.chain, P a) :
    ∀ c ∈ b.scope, P c ∧ ∀ a ∈ c.chain, a.name ∈ b.scope.map (·.name) := by
  obtain ⟨honly, hsub, hnames⟩ := addToScope_spec [rootClass] (b.imports.flatMap (·.chain))
  intro c hc
  rcases honly c hc with hmem | hmem
  · obtain rfl := List.mem_singleton.1 hmem
    refine ⟨hroot, fun a ha => ?_⟩
    obtain rfl : a = rootClass := by simpa [rootClass, chain] using ha
    exact List.mem_map_of_mem (hsub (List.mem_singleton_self _))
  · obtain ⟨i, hi, hc⟩ := List.mem_flatMap.1 hmem
    refine ⟨himports i hi c hc, fun a ha => hnames a ?_⟩
    exact List.mem_flatMap.2 ⟨i, hi, (chain_suffix hc).subset ha⟩

/-- The root and the imported classes with all above them are a closed scope. -/
theorem closed_scope {b : Builder} (himports : ∀ c ∈ b.imports, c.Sound) : Closed b.scope :=
  forall_mem_scope sound_rootClass fun c hc _ ha => (himports c hc).of_mem_chain ha

theorem rooted_scope {b : Builder} (himports : ∀ c ∈ b.imports, ∃ ds, Lineage ds c) :
    Rooted b.scope := by
  refine forall_mem_scope ⟨[], .root⟩ fun c hc a ha => ?_
  obtain ⟨ds, hlin⟩ := himports c hc
  obtain ⟨ds', -, hlin'⟩ := hlin.of_mem_chain ha
  exact ⟨ds', hlin'⟩

/-- Where the class that a draft resolves to comes from. -/
structure Origin (d : Draft) (above : List Draft) (base : Class) (r : Resolved) : Prop where
  lineage : Lineage above base
  resolves : ∃ e : EntryPoints, (e.resolve d base).1 = .ok r
  names : (r.cls.chain.map (·.name)).Nodup

namespace Origin

variable {d : Draft} {above : List Draft} {base : Class} {r : Resolved}

theorem derives (h : Origin d above base r) : d.Derives base r.cls := by
  obtain ⟨e, hres⟩ := h.resolves
  exact (EntryPoints.resolve_ok hres).1

/-- The lineage of the class itself. -/
theorem lineage_cls (h : Origin d above base r) : Lineage (d :: above) r.cls := by
  obtain ⟨e, hres⟩ := h.resolves
  exact h.lineage.derive hres

theorem sound (h : Origin d above base r) : r.cls.Sound :=
  ⟨⟨_, h.lineage_cls⟩, h.names⟩

end Origin

/-- One draft resolved against a rooted scope that lacks its name: no class above the new one has
its name, and the scope stays rooted with it. -/
theorem Rooted.resolve {scope : List Class} (hscope : Rooted scope) {d : Draft} {base : Class}
    (hbase : base ∈ scope) (hfresh : d.name ∉ scope.map (·.name)) {e : EntryPoints} {r : Resolved}
    (hres : (e.resolve d base).1 = .ok r) :
    (∃ above, Lineage above base) ∧ d.name ∉ base.chain.map (·.name) ∧
      Rooted (scope ++ [r.cls]) := by
  obtain ⟨⟨above, hlin⟩, habove⟩ := hscope base hbase
  have hd := (EntryPoints.resolve_ok hres).1
  refine ⟨⟨above, hlin⟩, fun hmem => hfresh ?_, fun c hc => ?_⟩
  · obtain ⟨a, ha, hname⟩ := List.mem_map.1 hmem
    exact hname ▸ habove a ha
  · rw [List.map_append]
    rcases List.mem_append.1 hc with hold | hnew
    · exact ⟨(hscope c hold).1, fun a ha => List.mem_append_left _ ((hscope c hold).2 a ha)⟩
    · obtain rfl := List.mem_singleton.1 hnew
      refine ⟨⟨_, hlin.derive hres⟩, fun a ha => ?_⟩
      -- the chain of the new class is the class itself and then the chain of its superclass
      obtain rfl | ha := List.mem_cons.1 (hd.chain_eq ▸ ha)
      · exact List.mem_append_right _ (by simp)
      · exact List.mem_append_left _ (habove a ha)

/-- In a closed scope the class has an origin, and the scope stays closed with it. -/
theorem Closed.resolve {scope : List Class} (hscope : Closed scope) {d : Draft} {base : Class}
    (hbase : base ∈ scope) (hfresh : d.name ∉ scope.map (·.name)) {e : EntryPoints} {r : Resolved}
    (hres : (e.resolve d base).1 = .ok r) :
    (∃ above, Origin d above base r) ∧ Closed (scope ++ [r.cls]) := by
  obtain ⟨⟨above, hlin⟩, hnew, hrooted⟩ := hscope.rooted.resolve hbase hfresh hres
  have hd := (EntryPoints.resolve_ok hres).1
  have hnames : (r.cls.chain.map (·.name)).Nodup := by
    rw [hd.chain_eq, List.map_cons, List.nodup_cons, hd.name]
    exact ⟨hnew, (hscope base hbase).1.names⟩
  have horigin : Origin d above base r := ⟨hlin, ⟨e, hres⟩, hnames⟩
  refine ⟨⟨above, horigin⟩, fun c hc => ⟨?_, (hrooted c hc).2⟩⟩
  rcases List.mem_append.1 hc with hold | hnew
  · exact (hscope c hold).1
  · exact List.mem_singleton.1 hnew ▸ horigin.sound

/-- What resolving the first of several drafts gives, and the rest after it. -/
theorem resolveAll_cons_ok {scope : List Class} {e : EntryPoints} {d : Draft} {ds : List Draft}
    {rs : List Resolved} (h : resolveAll scope e (d :: ds) = .ok rs) :
    ∃ base r e' rs', classNamed? scope d.superclass = some base ∧ e.resolve d base = (.ok r, e') ∧
      resolveAll (scope ++ [r.cls]) e' ds = .ok rs' ∧ rs = r :: rs' := by
  unfold resolveAll at h
  split at h
  next => cases h
  next base hbase =>
    split at h
    next => cases h
    next r e' hres =>
      cases hrest : resolveAll (scope ++ [r.cls]) e' ds with
      | error err => simp [hrest, Except.map] at h
      | ok rs' =>
        simp only [hrest, Except.map, Except.ok.injEq] at h
        exact ⟨base, r, e', rs', hbase, hres, hrest, h.symm⟩

/-- Each draft gives a class of its name. -/
theorem resolveAll_names {scope : List Class} {e : EntryPoints} {ds : List Draft}
    {rs : List Resolved} (h : resolveAll scope e ds = .ok rs) :
    (rs.map (·.cls)).map (·.name) = ds.map (·.name) := by
  induction ds generalizing scope e rs with
  | nil =>
    cases h
    rfl
  | cons d ds ih =>
    obtain ⟨base, r, e', rs', -, hres, hrest, rfl⟩ := resolveAll_cons_ok h
    have hres : (e.resolve d base).1 = .ok r := by rw [hres]
    rw [List.map_cons, List.map_cons, List.map_cons, ih hrest, (EntryPoints.resolve_ok hres).1.name]

/-- What is related to an element of the second list stands in the first. -/
theorem exists_of_forall₂ {α β : Type} {R : α → β → Prop} {l : List α} {l' : List β} {b : β}
    (h : List.Forall₂ R l l') (hb : b ∈ l') : ∃ a ∈ l, R a b := by
  induction h with
  | nil => cases hb
  | @cons a b' _ _ hab _ ih =>
    obtain rfl | hb := List.mem_cons.1 hb
    · exact ⟨a, List.mem_cons_self, hab⟩
    · obtain ⟨a', ha', hrel⟩ := ih hb
      exact ⟨a', List.mem_cons_of_mem _ ha', hrel⟩

/-- What holds of the scope and the pieces at first and is kept by each step holds all along, and
what each step gives for its draft holds of all. When a draft's turn comes, no class in scope has
its name. -/
theorem resolveAll_induct {I : List Class → EntryPoints → Prop} {Q : Draft → Resolved → Prop}
    (hstep : ∀ {scope : List Class} {e e' : EntryPoints} {d : Draft} {base : Class} {r : Resolved},
      I scope e → base ∈ scope → d.name ∉ scope.map (·.name) → e.resolve d base = (.ok r, e') →
        Q d r ∧ I (scope ++ [r.cls]) e')
    {scope : List Class} {e : EntryPoints} {ds : List Draft} {rs : List Resolved}
    (hscope : I scope e) (hnodup : (ds.map (·.name)).Nodup)
    (hfresh : ∀ d ∈ ds, d.name ∉ scope.map (·.name)) (h : resolveAll scope e ds = .ok rs) :
    List.Forall₂ Q ds rs := by
  -- the scope grows by each class, so that `I` goes from one draft to the next
  induction ds generalizing scope e rs with
  | nil =>
    cases h
    exact .nil
  | cons d ds ih =>
    obtain ⟨base, r, e', rs', hbase, hres, hrest, rfl⟩ := resolveAll_cons_ok h
    obtain ⟨hd, hnodup⟩ := List.nodup_cons.1 (List.map_cons ▸ hnodup)
    obtain ⟨hr, hscope'⟩ := hstep hscope (List.mem_of_find?_eq_some hbase)
      (hfresh d List.mem_cons_self) hres
    have hname : r.cls.name = d.name := (EntryPoints.resolve_ok (e := e) (by rw [hres])).1.name
    refine .cons hr (ih hscope' hnodup (fun d' hd' hmem => ?_) hrest)
    -- no later draft has the name of the class that was added
    rw [List.map_append, List.mem_append] at hmem
    rcases hmem with hold | hnew
    · exact hfresh d' (List.mem_cons_of_mem _ hd') hold
    · refine hd (List.mem_map.2 ⟨d', hd', ?_⟩)
      simpa [hname] using hnew

/-- Every class that is resolved against a closed scope has an origin in its draft. -/
theorem resolveAll_ok {scope : List Class} {e : EntryPoints} {ds : List Draft}
    {rs : List Resolved} (hscope : Closed scope) (hnodup : (ds.map (·.name)).Nodup)
    (hfresh : ∀ d ∈ ds, d.name ∉ scope.map (·.name)) (h : resolveAll scope e ds = .ok rs) :
    List.Forall₂ (fun d r => ∃ above base, Origin d above base r) ds rs := by
  refine resolveAll_induct (I := fun scope _ => Closed scope) ?_ hscope hnodup hfresh h
  intro scope e e' d base r hscope hbase hfresh hres
  obtain ⟨⟨above, horigin⟩, hclosed⟩ := hscope.resolve hbase hfresh (e := e) (by rw [hres])
  exact ⟨⟨above, base, horigin⟩, hclosed⟩

/-! ## The stages of a build -/

/-- What the stages of a build that succeeds give. -/
structure Stages (b : Builder) (m : Module) where
  drafts : List Draft
  inherited : Owners
  resolved : List Resolved
  owners : Owners
  named : isIdentifier b.config.name = true
  coprocessor : b.checkCoprocessor = .ok ()
  ordered : order b.drafts (b.scope.map (·.name)) = .ok drafts
  inherits : Owners.ofClasses (sortByName b.scope) = .ok inherited
  resolves : resolveAll b.scope {} drafts = .ok resolved
  claims : inherited.claimAll (resolved.map fun r => (r.cls.name, entryNamesOf r)) = .ok owners
  units : unitsOf (catalogOf (b.scope ++ resolved.map (·.cls))) resolved = .ok m.classes
  userNames : b.checkUserNames ((m.classes.flatMap classVariables).map (·.name) ++ owners.names
    ++ m.classes.map (·.init.name)) = .ok ()
  config : m.config = b.config
  kind : m.kind = .user
  globals : m.globals = m.classes.flatMap classVariables ++ b.globals.items
  functions : m.functions = b.functions.items

theorem build_ok {b : Builder} {m : Module} (h : b.build = .ok m) : Nonempty (Stages b m) := by
  unfold Builder.build at h
  by_cases hname : isIdentifier b.config.name = true
  · simp only [hname] at h
    obtain ⟨⟨⟩, hcoprocessor, h⟩ := bind_eq_ok.1 h
    obtain ⟨drafts, hordered, h⟩ := bind_eq_ok.1 h
    obtain ⟨inherited, hinherits, h⟩ := bind_eq_ok.1 h
    obtain ⟨resolved, hresolves, h⟩ := bind_eq_ok.1 h
    obtain ⟨owners, hclaims, h⟩ := bind_eq_ok.1 h
    obtain ⟨units, hunits, h⟩ := bind_eq_ok.1 h
    obtain ⟨⟨⟩, huser, h⟩ := bind_eq_ok.1 h
    obtain rfl := pure_eq_ok.1 h
    exact ⟨{ drafts, inherited, resolved, owners, named := hname, coprocessor := hcoprocessor
             ordered := hordered, inherits := hinherits, resolves := hresolves
             claims := hclaims, units := hunits, userNames := huser
             config := rfl, kind := rfl, globals := rfl, functions := rfl }⟩
  · simp only [hname] at h
    exact absurd h throw_bind_ne_ok

/-- Stages that all succeed are a build. -/
theorem Stages.build {b : Builder} {m : Module} (s : Stages b m) : b.build = .ok m := by
  have hmodule : ({
      config := b.config, kind := .user, classes := m.classes
      globals := m.classes.flatMap classVariables ++ b.globals.items
      functions := b.functions.items } : Module) = m := by
    rw [← s.config, ← s.kind, ← s.globals, ← s.functions]
  unfold Builder.build
  simp only [s.named]
  refine bind_eq_ok.2 ⟨(), s.coprocessor, bind_eq_ok.2 ⟨_, s.ordered, ?_⟩⟩
  refine bind_eq_ok.2 ⟨_, s.inherits, bind_eq_ok.2 ⟨_, s.resolves, ?_⟩⟩
  refine bind_eq_ok.2 ⟨_, s.claims, bind_eq_ok.2 ⟨_, s.units, bind_eq_ok.2 ⟨(), s.userNames, ?_⟩⟩⟩
  exact pure_eq_ok.2 hmodule

/-- The function that the source defines, if it defines one. -/
def Provision.definition? : Provision → Option FunctionDef
  | .external _ => none
  | .definition f => some f

/-- The functions that the source defines for the bodies that a class's author gives. -/
def ClassUnit.definitions (u : ClassUnit) : List FunctionDef :=
  u.provisions.filterMap (·.definition?)

/-- What is generated for a class. -/
theorem unitOf_ok {catalog : Device.Catalog} {r : Resolved} {u : ClassUnit}
    (h : unitOf catalog r = .ok u) :
    u.cls = r.cls ∧ u.entries = r.entries ∧ provisionsOf r.cls.implemented = .ok u.provisions ∧
      u.classConstructor = classConstructor r.cls ∧ u.init = initRoutine r.cls ∧
      u.routines.isSome = r.cls.coprocessor ∧
      ∀ routines, u.routines = some routines → catalog.routines r.cls = .ok routines := by
  unfold unitOf at h
  split at h
  -- a class on the coprocessor needs its copy routines, any other has none
  next hco =>
    obtain ⟨routines, hroutines, h⟩ := bind_eq_ok.1 h
    obtain ⟨provisions, hprovisions, h⟩ := bind_eq_ok.1 h
    obtain rfl := pure_eq_ok.1 h
    cases hcopy : catalog.routines r.cls with
    | error err => simp [hcopy] at hroutines
    | ok copies =>
      obtain rfl : some copies = routines := by simpa [hcopy] using hroutines
      exact ⟨rfl, rfl, hprovisions, rfl, rfl, hco.symm, fun _ hsome => by rw [Option.some.inj hsome]⟩
  next hco =>
    obtain ⟨routines, hroutines, h⟩ := bind_eq_ok.1 h
    obtain ⟨provisions, hprovisions, h⟩ := bind_eq_ok.1 h
    obtain rfl := pure_eq_ok.1 h
    obtain rfl := pure_eq_ok.1 hroutines
    exact ⟨rfl, rfl, hprovisions, rfl, rfl, by simpa using hco, fun _ hsome => by cases hsome⟩

/-- What is generated for several classes is generated for each of them, in order. -/
theorem unitsOf_ok {catalog : Device.Catalog} {rs : List Resolved} {us : List ClassUnit}
    (h : unitsOf catalog rs = .ok us) : rs.map (unitOf catalog) = us.map .ok := by
  induction rs generalizing us with
  | nil =>
    cases h
    rfl
  | cons r rs ih =>
    obtain ⟨u, hunit, h⟩ := bind_eq_ok.1 h
    obtain ⟨us', hrest, h⟩ := bind_eq_ok.1 h
    obtain rfl := pure_eq_ok.1 h
    rw [List.map_cons, List.map_cons, hunit, ih hrest]

/-- Units hold the classes that were resolved, in order. -/
theorem unitsOf_cls {catalog : Device.Catalog} {rs : List Resolved} {us : List ClassUnit}
    (h : unitsOf catalog rs = .ok us) : us.map (·.cls) = rs.map (·.cls) := by
  induction rs generalizing us with
  | nil =>
    cases h
    rfl
  | cons r rs ih =>
    obtain ⟨u, hunit, h⟩ := bind_eq_ok.1 h
    obtain ⟨us', hrest, h⟩ := bind_eq_ok.1 h
    obtain rfl := pure_eq_ok.1 h
    rw [List.map_cons, List.map_cons, (unitOf_ok hunit).1, ih hrest]

/-! ## The classes of modules -/

/-- The classes that a module can import: the root, and the classes of modules that were built. -/
inductive Available : Class → Prop where
  | root : Available rootClass
  | built {b : Builder} {m : Module} {u : ClassUnit} :
    (∀ c ∈ b.imports, Available c) → b.build = .ok m → u ∈ m.classes → Available u.cls

/-- Each class of a module is one that was resolved, with what is generated for it. -/
theorem Stages.exists_unitOf {b : Builder} {m : Module} (s : Stages b m) {u : ClassUnit}
    (hu : u ∈ m.classes) : ∃ r ∈ s.resolved,
      unitOf (catalogOf (b.scope ++ s.resolved.map (·.cls))) r = .ok u :=
  List.mem_map.1 (unitsOf_ok s.units ▸ List.mem_map_of_mem hu)

/-- Every class of a module whose imports are sound has an origin among the module's drafts. -/
theorem Stages.exists_origin {b : Builder} {m : Module} (s : Stages b m)
    (himports : ∀ c ∈ b.imports, c.Sound) {u : ClassUnit} (hu : u ∈ m.classes) :
    ∃ d ∈ b.drafts, ∃ above base r, Origin d above base r ∧
      unitOf (catalogOf (b.scope ++ s.resolved.map (·.cls))) r = .ok u := by
  obtain ⟨hperm, hnodup, hfresh⟩ := order_ok s.ordered
  obtain ⟨r, hr, hunit⟩ := s.exists_unitOf hu
  obtain ⟨d, hd, above, base, horigin⟩ := exists_of_forall₂ (resolveAll_ok (closed_scope himports)
    ((hperm.map _).nodup_iff.2 hnodup) (fun d hd => (hfresh d (hperm.subset hd)).2) s.resolves) hr
  exact ⟨d, hperm.subset hd, above, base, r, horigin, hunit⟩

/-- The draft of a class's name is the one that it has its origin in. -/
theorem Stages.origin_of_draft {b : Builder} {m : Module} (s : Stages b m)
    (himports : ∀ c ∈ b.imports, c.Sound) {u : ClassUnit} (hu : u ∈ m.classes) {d : Draft}
    (hd : d ∈ b.drafts) (hname : d.name = u.name) :
    ∃ above base r, Origin d above base r ∧
      unitOf (catalogOf (b.scope ++ s.resolved.map (·.cls))) r = .ok u := by
  obtain ⟨d', hd', above, base, r, horigin, hunit⟩ := s.exists_origin himports hu
  have hname' : d'.name = u.name := by
    rw [ClassUnit.name, (unitOf_ok hunit).1, horigin.derives.name]
  obtain rfl := eq_of_key_eq (f := Draft.name) (order_ok s.ordered).2.1 hd' hd
    (hname'.trans hname.symm)
  exact ⟨above, base, r, horigin, hunit⟩

theorem Available.sound {c : Class} (h : Available c) : c.Sound := by
  induction h with
  | root => exact sound_rootClass
  | @built b m u _ hbuild hu ih =>
    obtain ⟨s⟩ := build_ok hbuild
    obtain ⟨d, -, above, base, r, horigin, hunit⟩ := s.exists_origin ih hu
    rw [(unitOf_ok hunit).1]
    exact horigin.sound

/-- The classes of the module, if it builds. -/
def Builder.classes (b : Builder) : List Class :=
  match b.build with
  | .ok m => m.classes.map (·.cls)
  | .error _ => []

theorem Builder.available_of_mem_classes {b : Builder} (himports : ∀ c ∈ b.imports, Available c)
    {c : Class} (hc : c ∈ b.classes) : Available c := by
  unfold classes at hc
  split at hc
  next m hbuild =>
    obtain ⟨u, hu, rfl⟩ := List.mem_map.1 hc
    exact .built himports hbuild hu
  next => cases hc

/-! ## Two modules -/

namespace Sample

open Class.Sample

/-- A module with one class. -/
def shapes : Builder where
  config := { name := "shapes" }
  drafts := [shape]

/-- A module whose classes extend that class, one of them through the other. -/
def tiles : Builder where
  config := { name := "tiles" }
  drafts := [{ tile with coprocessor := false }, square]
  imports := shapes.classes

theorem available_imports : ∀ c ∈ tiles.imports, Available c :=
  fun _ hc => Builder.available_of_mem_classes (b := shapes)
    (fun _ h => absurd h List.not_mem_nil) hc

/-- The second module has both its classes, and defines a function for one of them. -/
theorem build_tiles : ∃ m, tiles.build = .ok m ∧
    (∃ u ∈ m.classes, u.name = "Tile" ∧ u.cls.isAbstract = false) ∧
    ∃ u ∈ m.classes, u.name = "Square" ∧ ∃ g ∈ u.definitions, g.name = "Square_resize" ∧
      g.signature.params.map (·.name) = ["_self", "width", "height"] := by
  have hsorted : sortByName tiles.scope = tiles.scope :=
    List.mergeSort_of_pairwise (by decide +kernel)
  refine exists_of_any_toOption ?_
  rw [Builder.build, hsorted]
  decide +kernel

end Sample

end Module

end ClassForge

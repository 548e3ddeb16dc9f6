import ClassForge.Proofs.Device.Expansion
import ClassForge.Proofs.Module.EntryPoints
import ClassForge.Proofs.Module.Owners

/-!
# Clashes of entry points

Delegators and super-delegators are public, so no two classes in scope of a module may introduce one
of the same name. A build checks the classes that were there before, then those of the module.
Between them the checks find every pair of classes that clash, and nothing else counts: an override
introduces no entry point.
-/

namespace ClassForge.Module

open C ClassForge.Class

/-! ## Faults of other kinds -/

/-- A computation that may fail, but not because two classes introduce one entry point. -/
def Clashless {α : Type} (x : Except ModelError α) : Prop :=
  ∀ n first second, x ≠ .error (.delegatorClash n first second)

namespace Clashless

variable {α β : Type} {x : Except ModelError α} {f : α → Except ModelError β}

theorem ok (a : α) : Clashless (.ok a : Except ModelError α) := by
  intro n first second h
  cases h

theorem bind (hx : Clashless x) (hf : ∀ a, Clashless (f a)) : Clashless (x >>= f) := by
  intro n first second h
  cases x with
  | error e => exact hx n first second (congrArg Except.error (Except.error.inj h))
  | ok a => exact hf a n first second h

theorem map {g : α → β} (hx : Clashless x) : Clashless (g <$> x) := by
  intro n first second h
  cases x with
  | error e => exact hx n first second (congrArg Except.error (Except.error.inj h))
  | ok a => cases h

theorem ite {c : Prop} [Decidable c] {y : Except ModelError α} (hx : Clashless x)
    (hy : Clashless y) : Clashless (if c then x else y) := by
  by_cases hc : c
  · rwa [if_pos hc]
  · rwa [if_neg hc]

theorem ofType (y : Except TypeError α) : Clashless (ModelError.ofType y) := by
  intro n first second h
  cases y <;> cases h

end Clashless

theorem clashless_expand (cat : Device.Catalog) (keep : Device.Field → Bool) (path : List String)
    (fs : List Device.Field) : Clashless (cat.expand keep path fs) := by
  intro n first second h
  obtain ⟨p, hfault⟩ | ⟨cls, hfault⟩ := Device.Catalog.expand_error h <;> cases hfault

theorem clashless_routines (cat : Device.Catalog) (c : Class) : Clashless (cat.routines c) := by
  have hto : Clashless (some <$> cat.toDevice c) :=
    ((clashless_expand cat _ _ _).bind fun _ => .ok _).map
  have hfrom : Clashless (some <$> cat.fromDevice c) :=
    ((clashless_expand cat _ _ _).bind fun _ => .ok _).map
  unfold Device.Catalog.routines
  refine .ite (hto.bind fun _ => ?_) ((Clashless.ok none).bind fun _ => ?_)
  all_goals exact .ite (hfrom.bind fun _ => .ok _) ((Clashless.ok none).bind fun _ => .ok _)

theorem clashless_provisionsOf (ms : List Method) : Clashless (provisionsOf ms) := by
  induction ms with
  | nil => exact .ok []
  | cons m ms ih =>
    have hprovision : Clashless (provisionOf m) := by
      unfold provisionOf
      split
      next => exact .ok none
      next =>
        dsimp only
        split
        next => exact .ok _
        next => exact (Clashless.ofType _).bind fun _ => .ok _
        all_goals exact .ok none
    exact hprovision.bind fun _ => ih.bind fun _ => .ok _

theorem clashless_unitsOf (cat : Device.Catalog) (rs : List Resolved) :
    Clashless (unitsOf cat rs) := by
  induction rs with
  | nil => exact .ok []
  | cons r rs ih =>
    have hunit : Clashless (unitOf cat r) := by
      unfold unitOf
      refine .ite ((clashless_routines cat r.cls).map.bind fun _ => ?_)
        ((Clashless.ok none).bind fun _ => ?_)
      all_goals exact (clashless_provisionsOf _).bind fun _ => .ok _
    exact hunit.bind fun _ => ih.bind fun _ => .ok _

theorem Builder.clashless_checkUserNames (b : Builder) (generated : List String) :
    Clashless (b.checkUserNames generated) := by
  unfold Builder.checkUserNames
  intro n first second h
  dsimp only at h
  split at h <;> cases h

/-! ## Who introduces an entry point -/

/-- One of the classes has the name `cls` and introduces the entry point. -/
def IntroducedBy (classes : List Class) (name cls : String) : Prop :=
  ∃ c ∈ classes, c.name = cls ∧ name ∈ c.entryNames

/-- Two classes of different names introduce one entry point. -/
def Shared (classes : List Class) (name first second : String) : Prop :=
  first ≠ second ∧ IntroducedBy classes name first ∧ IntroducedBy classes name second

theorem introducedBy_append {cs cs' : List Class} {name cls : String} :
    IntroducedBy (cs ++ cs') name cls ↔ IntroducedBy cs name cls ∨ IntroducedBy cs' name cls := by
  simp only [IntroducedBy, List.mem_append, or_and_right, exists_or]

/-- Classes claim the entry points that they introduce. -/
theorem claimed_sortByName {classes : List Class} {name cls : String} :
    Owners.Claimed ((sortByName classes).map fun c => (c.name, c.entryNames)) name cls ↔
      IntroducedBy classes name cls := by
  simp only [Owners.Claimed, IntroducedBy, sortByName, List.mem_map, List.mem_mergeSort,
    Prod.mk.injEq]
  constructor
  · rintro ⟨_, ⟨c, hc, rfl, rfl⟩, hname⟩
    exact ⟨c, hc, rfl, hname⟩
  · rintro ⟨c, hc, rfl, hname⟩
    exact ⟨_, ⟨c, hc, rfl, rfl⟩, hname⟩

theorem owner?_ofClasses {classes : List Class} {o : Owners}
    (h : Owners.ofClasses (sortByName classes) = .ok o) (name cls : String) :
    o.owner? name = some cls ↔ IntroducedBy classes name cls := by
  rw [Owners.claimAll_ok h, claimed_sortByName]
  simp [Owners.owner?]

/-- Resolved classes claim the entry points that were made for them, which are those that they
introduce. -/
theorem claimed_resolved {rs : List Resolved}
    (hmade : ∀ r ∈ rs, (entryNamesOf r).Perm r.cls.entryNames) {name cls : String} :
    Owners.Claimed (rs.map fun r => (r.cls.name, entryNamesOf r)) name cls ↔
      IntroducedBy (rs.map (·.cls)) name cls := by
  simp only [Owners.Claimed, IntroducedBy, List.mem_map, Prod.mk.injEq]
  constructor
  · rintro ⟨_, ⟨r, hr, rfl, rfl⟩, hname⟩
    exact ⟨_, ⟨r, hr, rfl⟩, rfl, (hmade r hr).subset hname⟩
  · rintro ⟨_, ⟨r, hr, rfl⟩, rfl, hname⟩
    exact ⟨_, ⟨r, hr, rfl, rfl⟩, (hmade r hr).symm.subset hname⟩

/-! ## The verdict of a build -/

/-- The module's name, the device copies its classes ask for and their order are no reason to refuse
it, and each draft gives a class. -/
structure Builder.Resolves (b : Builder) (drafts : List Draft) (rs : List Resolved) : Prop where
  named : isIdentifier b.config.name = true
  coprocessor : ∀ d ∈ b.drafts, d.coprocessor = true → b.config.coprocessor = true
  ordered : order b.drafts (b.scope.map (·.name)) = .ok drafts
  resolves : resolveAll b.scope {} drafts = .ok rs

theorem Builder.checkCoprocessor_eq_ok {b : Builder} :
    b.checkCoprocessor = .ok () ↔
      ∀ d ∈ b.drafts, d.coprocessor = true → b.config.coprocessor = true := by
  unfold checkCoprocessor
  split
  next d hfind =>
    have hd := List.find?_some hfind
    simp only [Bool.and_eq_true, Bool.not_eq_true'] at hd
    simp only [reduceCtorEq, false_iff, not_forall]
    exact ⟨d, List.mem_of_find?_eq_some hfind, hd.1, by simp [hd.2]⟩
  next hnone => simpa using hnone

theorem Builder.checkUserNames_eq_ok {b : Builder} {generated : List String} :
    b.checkUserNames generated = .ok () ↔
      ∀ n ∈ b.globals.names ++ b.functions.names, n ∉ generated := by
  unfold checkUserNames
  dsimp only
  split
  next n hfind =>
    have hn := List.mem_mergeSort.1 (List.mem_of_find?_eq_some hfind)
    have hgenerated := List.find?_some hfind
    simp only [reduceCtorEq, false_iff, not_forall, not_not]
    exact ⟨n, hn, List.contains_iff_mem.1 hgenerated⟩
  next hnone => simpa using hnone

namespace Builder.Resolves

variable {b : Builder} {drafts : List Draft} {rs : List Resolved}

theorem introduces (h : b.Resolves drafts rs) (himports : ∀ c ∈ b.imports, ∃ ds, Lineage ds c) :
    List.Forall₂ (fun d r => ∃ base, Introduces d base r) drafts rs := by
  obtain ⟨hperm, hnodup, hfresh⟩ := order_ok h.ordered
  exact resolveAll_introduces (rooted_scope himports) ((hperm.map _).nodup_iff.2 hnodup)
    (fun d hd => (hfresh d (hperm.subset hd)).2) h.resolves

theorem entryNamesOf_perm (h : b.Resolves drafts rs)
    (himports : ∀ c ∈ b.imports, ∃ ds, Lineage ds c) :
    ∀ r ∈ rs, (entryNamesOf r).Perm r.cls.entryNames := by
  intro r hr
  obtain ⟨d, -, base, hintroduces⟩ := exists_of_forall₂ (h.introduces himports) hr
  exact hintroduces.entryNamesOf_perm

/-- No two classes in scope have one name. -/
theorem names_nodup (h : b.Resolves drafts rs) :
    ((b.scope ++ rs.map (·.cls)).map (·.name)).Nodup := by
  obtain ⟨hperm, hnodup, hfresh⟩ := order_ok h.ordered
  rw [List.map_append, resolveAll_names h.resolves]
  refine (scope_names_nodup b).append ((hperm.map _).nodup_iff.2 hnodup) fun n hscope hdraft => ?_
  obtain ⟨d, hd, rfl⟩ := List.mem_map.1 hdraft
  exact (hfresh d (hperm.subset hd)).2 hscope

/-- Where no claim fails, an entry point is owned by the class that introduces it. -/
theorem owner?_eq_some (h : b.Resolves drafts rs) (himports : ∀ c ∈ b.imports, ∃ ds, Lineage ds c)
    {inherited owners : Owners} (hinherits : Owners.ofClasses (sortByName b.scope) = .ok inherited)
    (hclaims : inherited.claimAll (rs.map fun r => (r.cls.name, entryNamesOf r)) = .ok owners)
    {name cls : String} : owners.owner? name = some cls ↔
      IntroducedBy (b.scope ++ rs.map (·.cls)) name cls := by
  rw [Owners.claimAll_ok hclaims, owner?_ofClasses hinherits,
    claimed_resolved (h.entryNamesOf_perm himports), introducedBy_append]

/-- So no two classes share one. -/
theorem not_shared (h : b.Resolves drafts rs) (himports : ∀ c ∈ b.imports, ∃ ds, Lineage ds c)
    {inherited owners : Owners} (hinherits : Owners.ofClasses (sortByName b.scope) = .ok inherited)
    (hclaims : inherited.claimAll (rs.map fun r => (r.cls.name, entryNamesOf r)) = .ok owners)
    (name first second : String) : ¬ Shared (b.scope ++ rs.map (·.cls)) name first second := by
  rintro ⟨hne, hfirst, hsecond⟩
  rw [← h.owner?_eq_some himports hinherits hclaims] at hfirst hsecond
  exact hne (Option.some.inj (hfirst.symm.trans hsecond))

/-- The names in use are those of the entry points that classes introduce. -/
theorem mem_owners_names (h : b.Resolves drafts rs)
    (himports : ∀ c ∈ b.imports, ∃ ds, Lineage ds c) {inherited owners : Owners}
    (hinherits : Owners.ofClasses (sortByName b.scope) = .ok inherited)
    (hclaims : inherited.claimAll (rs.map fun r => (r.cls.name, entryNamesOf r)) = .ok owners)
    {name : String} :
    name ∈ owners.names ↔ ∃ c ∈ b.scope ++ rs.map (·.cls), name ∈ c.entryNames := by
  simp only [Owners.mem_names, h.owner?_eq_some himports hinherits hclaims, IntroducedBy]
  constructor
  · rintro ⟨cls, c, hc, -, hname⟩
    exact ⟨c, hc, hname⟩
  · rintro ⟨c, hc, hname⟩
    exact ⟨c.name, c, hc, rfl, hname⟩

/-- A build that fails because of two classes names an entry point that they share. It fails for
another reason only after no two were found. -/
theorem build_error (h : b.Resolves drafts rs) (himports : ∀ c ∈ b.imports, ∃ ds, Lineage ds c)
    {e : ModelError} (hbuild : b.build = .error e) :
    (∃ name first second, e = .delegatorClash name first second ∧
        Shared (b.scope ++ rs.map (·.cls)) name first second) ∨
      ((∀ name first second, e ≠ .delegatorClash name first second) ∧
        ∀ name first second, ¬ Shared (b.scope ++ rs.map (·.cls)) name first second) := by
  unfold build at hbuild
  simp only [h.named] at hbuild
  -- the steps of `build` in turn; names are claimed in two of them, for the scope and for the new
  -- classes
  obtain hfault | ⟨⟨⟩, -, hbuild⟩ := bind_eq_error.1 hbuild
  · rw [Builder.checkCoprocessor_eq_ok.2 h.coprocessor] at hfault
    cases hfault
  obtain hfault | ⟨drafts', hordered, hbuild⟩ := bind_eq_error.1 hbuild
  · rw [h.ordered] at hfault
    cases hfault
  obtain rfl := Except.ok.inj (h.ordered.symm.trans hordered)
  obtain hfault | ⟨inherited, hinherits, hbuild⟩ := bind_eq_error.1 hbuild
  · obtain ⟨n, first, second, rfl, hne, hfirst, hsecond⟩ := Owners.claimAll_error hfault
    rw [claimed_sortByName] at hfirst hsecond
    refine .inl ⟨n, first, second, rfl, hne, ?_, introducedBy_append.2 (.inl hsecond)⟩
    exact introducedBy_append.2 (.inl (hfirst.resolve_left (by simp [Owners.owner?])))
  obtain hfault | ⟨rs', hresolves, hbuild⟩ := bind_eq_error.1 hbuild
  · rw [h.resolves] at hfault
    cases hfault
  obtain rfl := Except.ok.inj (h.resolves.symm.trans hresolves)
  obtain hfault | ⟨owners, hclaims, hbuild⟩ := bind_eq_error.1 hbuild
  · obtain ⟨n, first, second, rfl, hne, hfirst, hsecond⟩ := Owners.claimAll_error hfault
    rw [claimed_resolved (h.entryNamesOf_perm himports)] at hfirst hsecond
    refine .inl ⟨n, first, second, rfl, hne, ?_, introducedBy_append.2 (.inr hsecond)⟩
    rwa [introducedBy_append, ← owner?_ofClasses hinherits]
  -- both claims went through, and no later step reports a clash
  refine .inr ⟨?_, h.not_shared himports hinherits hclaims⟩
  rintro name first second rfl
  exact ((clashless_unitsOf _ _).bind fun _ =>
    (b.clashless_checkUserNames _).bind fun _ => .ok _) name first second hbuild

end Builder.Resolves

namespace Stages

variable {b : Builder} {m : Module}

theorem toResolves (s : Stages b m) : b.Resolves s.drafts s.resolved :=
  ⟨s.named, Builder.checkCoprocessor_eq_ok.1 s.coprocessor, s.ordered, s.resolves⟩

/-- What is made public for a class of the module are the entry points that it introduces. -/
theorem entryNames_perm (s : Stages b m) (himports : ∀ c ∈ b.imports, ∃ ds, Lineage ds c)
    {u : ClassUnit} (hu : u ∈ m.classes) :
    ((u.delegators ++ u.superDelegators).map (·.name)).Perm u.cls.entryNames := by
  obtain ⟨r, hr, hunit⟩ := s.exists_unitOf hu
  obtain ⟨hcls, hentries, -⟩ := unitOf_ok hunit
  rw [ClassUnit.delegators, ClassUnit.superDelegators, hentries, List.map_append, List.map_map,
    List.map_map, hcls]
  exact s.toResolves.entryNamesOf_perm himports r hr

theorem cls_mem (s : Stages b m) {u : ClassUnit} (hu : u ∈ m.classes) :
    u.cls ∈ b.scope ++ s.resolved.map (·.cls) := by
  rw [← unitsOf_cls s.units]
  exact List.mem_append_right _ (List.mem_map_of_mem hu)

/-- No other class in scope introduces an entry point of a class of the module. -/
theorem not_mem_entryNames (s : Stages b m) (himports : ∀ c ∈ b.imports, ∃ ds, Lineage ds c)
    {u : ClassUnit} (hu : u ∈ m.classes) {c : Class}
    (hc : c ∈ b.scope ++ s.resolved.map (·.cls)) (hne : c ≠ u.cls) {name : String}
    (hname : name ∈ u.cls.entryNames) : name ∉ c.entryNames := by
  intro hother
  have hkey : c.name ≠ u.cls.name :=
    fun heq => hne (eq_of_key_eq s.toResolves.names_nodup hc (s.cls_mem hu) heq)
  apply s.toResolves.not_shared himports s.inherits s.claims name c.name u.cls.name
  exact ⟨hkey, ⟨c, hc, rfl, hother⟩, ⟨u.cls, s.cls_mem hu, rfl, hname⟩⟩

theorem unitNames_nodup (s : Stages b m) : (m.classes.map (·.name)).Nodup := by
  have hnames := s.toResolves.names_nodup
  rw [List.map_append, ← unitsOf_cls s.units, List.map_map] at hnames
  exact hnames.of_append_right

/-- The entry points that a module makes public have different names. -/
theorem entryNames_nodup (s : Stages b m) (himports : ∀ c ∈ b.imports, ∃ ds, Lineage ds c) :
    (m.classes.flatMap fun u => (u.delegators ++ u.superDelegators).map (·.name)).Nodup := by
  have hperm : ∀ u ∈ m.classes,
      ((u.delegators ++ u.superDelegators).map (·.name)).Perm u.cls.entryNames :=
    fun u hu => s.entryNames_perm himports hu
  -- within a class by its own check, between classes by the claims
  rw [List.nodup_flatMap]
  constructor
  · intro u hu
    obtain ⟨r, hr, hunit⟩ := s.exists_unitOf hu
    obtain ⟨d, -, base, hintroduces⟩ := exists_of_forall₂ (s.toResolves.introduces himports) hr
    rw [(hperm u hu).nodup_iff, (unitOf_ok hunit).1]
    exact hintroduces.entryNames_nodup
  · apply (List.pairwise_map.1 s.unitNames_nodup).imp_of_mem
    intro u u' hu hu' hne n hn hn'
    have hcls : u.cls ≠ u'.cls := fun heq => hne (congrArg Class.name heq)
    apply s.not_mem_entryNames himports hu' (s.cls_mem hu) hcls ((hperm u' hu').subset hn')
    exact (hperm u hu).subset hn

end Stages

namespace Builder.Resolves

variable {b : Builder} {drafts : List Draft} {rs : List Resolved}

theorem shared_of_clash (h : b.Resolves drafts rs) (himports : ∀ c ∈ b.imports, ∃ ds, Lineage ds c)
    {name first second : String} (hbuild : b.build = .error (.delegatorClash name first second)) :
    Shared (b.scope ++ rs.map (·.cls)) name first second := by
  obtain ⟨_, _, _, hfault, hshared⟩ | ⟨hother, -⟩ := h.build_error himports hbuild
  · cases hfault
    exact hshared
  · exact absurd rfl (hother name first second)

/-- No pair of classes that share an entry point is missed. -/
theorem exists_clash (h : b.Resolves drafts rs) (himports : ∀ c ∈ b.imports, ∃ ds, Lineage ds c)
    {name first second : String} (hshared : Shared (b.scope ++ rs.map (·.cls)) name first second) :
    ∃ name first second, b.build = .error (.delegatorClash name first second) := by
  cases hbuild : b.build with
  | ok m =>
    obtain ⟨s⟩ := build_ok hbuild
    obtain rfl := Except.ok.inj (s.ordered.symm.trans h.ordered)
    obtain rfl := Except.ok.inj (s.resolves.symm.trans h.resolves)
    exact absurd hshared (h.not_shared himports s.inherits s.claims name first second)
  | error e =>
    obtain ⟨n, c, c', rfl, -⟩ | ⟨-, hnone⟩ := h.build_error himports hbuild
    · exact ⟨n, c, c', rfl⟩
    · exact absurd hshared (hnone name first second)

/-- Where all drafts only override, what is shared was shared before. -/
theorem shared_scope (h : b.Resolves drafts rs) (himports : ∀ c ∈ b.imports, ∃ ds, Lineage ds c)
    (hover : ∀ d ∈ drafts, ∀ r ∈ rs, r.cls.name = d.name → OnlyOverrides d r)
    {name first second : String} :
    Shared (b.scope ++ rs.map (·.cls)) name first second ↔ Shared b.scope name first second := by
  have hnone : ∀ cls, ¬ IntroducedBy (rs.map (·.cls)) name cls := by
    rintro cls ⟨c, hc, -, hname⟩
    obtain ⟨r, hr, rfl⟩ := List.mem_map.1 hc
    obtain ⟨d, hd, base, hintroduces⟩ := exists_of_forall₂ (h.introduces himports) hr
    rw [hintroduces.entryNames_eq_nil (hover d hd r hr hintroduces.derives.name)] at hname
    cases hname
  simp only [Shared, introducedBy_append, hnone, or_false]

end Builder.Resolves

/-- A build reports a clash just where two classes in scope share an entry point, and the clash is
one that there is. A class introduces entry points for the methods that its draft defines under new
names alone. So overrides never clash, however many classes override one method: where all drafts
only override, the clashes are those of the scope. In a module that is built, no other class in
scope introduces an entry point of one of its classes. -/
theorem clash_decides {b : Builder} (himports : ∀ c ∈ b.imports, ∃ ds, Lineage ds c) :
    (∀ drafts rs, b.Resolves drafts rs →
      ((∃ name first second, b.build = .error (.delegatorClash name first second)) ↔
        ∃ name first second, Shared (b.scope ++ rs.map (·.cls)) name first second) ∧
      (∀ name first second, b.build = .error (.delegatorClash name first second) →
        Shared (b.scope ++ rs.map (·.cls)) name first second) ∧
      List.Forall₂ (fun d r => ∃ base, r.cls.base? = some base ∧
        r.cls.entryNames = (newDefs base.methods d.methods).flatMap fun f =>
          (f.introduce d.name).entryNames) drafts rs ∧
      ((∀ d ∈ drafts, ∀ r ∈ rs, r.cls.name = d.name → OnlyOverrides d r) →
        ((∃ name first second, b.build = .error (.delegatorClash name first second)) ↔
          ∃ name first second, Shared b.scope name first second))) ∧
    ∀ m, b.build = .ok m → ∀ u ∈ m.classes, ∀ c ∈ b.scope ++ m.classes.map (·.cls), c ≠ u.cls →
      ∀ f ∈ u.delegators ++ u.superDelegators, f.name ∉ c.entryNames := by
  constructor
  · intro drafts rs h
    have hiff : (∃ name first second, b.build = .error (.delegatorClash name first second)) ↔
        ∃ name first second, Shared (b.scope ++ rs.map (·.cls)) name first second := by
      constructor
      · rintro ⟨name, first, second, hbuild⟩
        exact ⟨name, first, second, h.shared_of_clash himports hbuild⟩
      · rintro ⟨name, first, second, hshared⟩
        exact h.exists_clash himports hshared
    refine ⟨hiff, fun _ _ _ => h.shared_of_clash himports, ?_, fun hover => ?_⟩
    · refine (h.introduces himports).imp fun d r ⟨base, hintroduces⟩ => ?_
      exact ⟨base, hintroduces.derives.base?_eq, hintroduces.entryNames_eq⟩
    · rw [hiff]
      simp only [h.shared_scope himports hover]
  · intro m hbuild u hu c hc hne f hf hname
    obtain ⟨s⟩ := build_ok hbuild
    rw [unitsOf_cls s.units] at hc
    apply s.not_mem_entryNames himports hu hc hne _ hname
    exact (s.entryNames_perm himports hu).subset (List.mem_map_of_mem hf)

namespace Sample

open Class.Sample

/-- A module of two classes, neither of which knows of the other's method. -/
def rivals : Builder where
  config := { name := "rivals" }
  drafts := [shape, { shape with name := "Panel" }]

theorem rivals_shared : ∃ drafts rs, rivals.Resolves drafts rs ∧
    Shared (rivals.scope ++ rs.map (·.cls)) "resize" "Shape" "Panel" := by
  obtain ⟨rs, hres, hintroduced⟩ := exists_of_any_toOption
    (x := do resolveAll rivals.scope {} (← order rivals.drafts (rivals.scope.map (·.name))))
    (P := fun rs => (∃ c ∈ rs.map (·.cls), c.name = "Shape" ∧ "resize" ∈ c.entryNames) ∧
      ∃ c ∈ rs.map (·.cls), c.name = "Panel" ∧ "resize" ∈ c.entryNames) (by decide +kernel)
  obtain ⟨drafts, hordered, hres⟩ := bind_eq_ok.1 hres
  refine ⟨drafts, rs, ⟨by decide +kernel, by decide, hordered, hres⟩, by decide, ?_, ?_⟩
  · exact introducedBy_append.2 (.inr hintroduced.1)
  · exact introducedBy_append.2 (.inr hintroduced.2)

end Sample

theorem clash_decides_sample :
    (∃ name first second, Sample.rivals.build = .error (.delegatorClash name first second)) ∧
    (∀ d ∈ Sample.tiles.drafts, ∃ f ∈ d.methods, f.name = "resize") ∧
    ∃ m, Sample.tiles.build = .ok m ∧ (∃ u ∈ m.classes, u.name = "Square") ∧
      ∀ u ∈ m.classes, ∀ c ∈ Sample.tiles.scope ++ m.classes.map (·.cls), c ≠ u.cls →
        ∀ f ∈ u.delegators ++ u.superDelegators, f.name ∉ c.entryNames := by
  refine ⟨?_, by decide, ?_⟩
  · obtain ⟨drafts, rs, hres, hshared⟩ := Sample.rivals_shared
    obtain ⟨hdecides, -⟩ := clash_decides (b := Sample.rivals) fun _ h => absurd h List.not_mem_nil
    exact (hdecides drafts rs hres).1.2 ⟨_, _, _, hshared⟩
  · obtain ⟨m, hbuild, -, u, hu, hname, -⟩ := Sample.build_tiles
    obtain ⟨-, hbuilt⟩ := clash_decides (b := Sample.tiles)
      fun c hc => (Sample.available_imports c hc).sound.lineage
    exact ⟨m, hbuild, ⟨u, hu, hname⟩, hbuilt m hbuild⟩

end ClassForge.Module

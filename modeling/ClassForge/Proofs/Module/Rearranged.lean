import ClassForge.Proofs.Class.Cycle
import ClassForge.Proofs.Class.Remembered
import ClassForge.Proofs.Device.Catalog
import ClassForge.Proofs.Module.Clash
import Mathlib.Data.List.Forall2

/-!
# The order of drafts and imports does not matter

Two builders whose drafts and imports differ in their order alone build the same classes, or neither
builds. A build carries an order of the drafts, the pieces remembered so far, the owners of entry
points and the catalog of classes with device copies from one class to the next, and what it makes
of a class shows none of them.
-/

namespace ClassForge

open C

namespace Class

theorem Orderable.perm {known known' : List String}
    {drafts drafts' : List Draft} (h : Orderable known drafts) (hknown : known.Perm known')
    (hdrafts : drafts.Perm drafts') : Orderable known' drafts' := by
  have hextends : Extends drafts' = Extends drafts := by
    funext d p
    rw [Extends, Extends, hdrafts.mem_iff]
  refine ⟨?_, (hdrafts.map _).nodup_iff.1 h.distinct, ?_, ?_, ?_⟩
  · exact fun d hd => h.single d (hdrafts.mem_iff.2 hd)
  · exact fun d hd hmem => h.fresh d (hdrafts.mem_iff.2 hd) (hknown.mem_iff.2 hmem)
  · intro d hd
    rw [← (hdrafts.map Draft.name).mem_iff, ← hknown.mem_iff]
    exact h.grounded d (hdrafts.mem_iff.2 hd)
  · rw [hextends]
    exact fun d hd => h.acyclic d (hdrafts.mem_iff.2 hd)

end Class

namespace Module

open ClassForge.Class

/-- Two builders have the same settings and declarations, and but for their order the same drafts
and imports. No two of the imported classes and those that they extend have one name. -/
structure Builder.Rearranged (b b' : Builder) : Prop where
  config : b.config = b'.config
  globals : b.globals = b'.globals
  functions : b.functions = b'.functions
  drafts : b.drafts.Perm b'.drafts
  imports : b.imports.Perm b'.imports
  lineage : ∀ c ∈ b.imports, ∃ ds, Lineage ds c
  unique : ∀ c ∈ b.imports.flatMap (·.chain), ∀ c' ∈ b.imports.flatMap (·.chain),
    c.name = c'.name → c = c'

theorem Builder.Rearranged.symm {b b' : Builder} (h : b.Rearranged b') : b'.Rearranged b where
  config := h.config.symm
  globals := h.globals.symm
  functions := h.functions.symm
  drafts := h.drafts.symm
  imports := h.imports.symm
  lineage c hc := h.lineage c (h.imports.mem_iff.2 hc)
  unique c hc c' hc' := by
    have hperm := h.imports.flatMap_right (·.chain)
    exact h.unique c (hperm.mem_iff.2 hc) c' (hperm.mem_iff.2 hc')

/-! ## Scopes -/

/-- Where names are unique the scope lacks none of the classes. -/
theorem mem_scope {b : Builder} (hlineage : ∀ c ∈ b.imports, ∃ ds, Lineage ds c)
    (hunique : ∀ c ∈ b.imports.flatMap (·.chain), ∀ c' ∈ b.imports.flatMap (·.chain),
      c.name = c'.name → c = c') {c : Class} :
    c ∈ b.scope ↔ c = rootClass ∨ c ∈ b.imports.flatMap (·.chain) := by
  obtain ⟨honly, hroot, hnames⟩ := addToScope_spec [rootClass] (b.imports.flatMap (·.chain))
  refine ⟨fun hc => (honly c hc).imp_left List.mem_singleton.1, ?_⟩
  rintro (rfl | hc)
  · exact hroot (List.mem_singleton_self _)
  · obtain ⟨x, hx, hname⟩ := List.mem_map.1 (hnames c hc)
    rcases honly x hx with hone | hmem
    · -- the root is above every import, so it is the only class of its name
      obtain rfl := List.mem_singleton.1 hone
      obtain ⟨i, hi, -⟩ := List.mem_flatMap.1 hc
      obtain ⟨ds, hlin⟩ := hlineage i hi
      have hmem := List.mem_flatMap.2 ⟨i, hi, hlin.rootClass_mem_chain⟩
      exact hunique _ hmem c hc hname ▸ hx
    · exact hunique x hmem c hc hname ▸ hx

theorem Builder.Rearranged.scope_perm {b b' : Builder} (h : b.Rearranged b') :
    b.scope.Perm b'.scope := by
  refine (List.perm_ext_iff_of_nodup (scope_names_nodup b).of_map
    (scope_names_nodup b').of_map).2 fun c => ?_
  rw [mem_scope h.lineage h.unique, mem_scope h.symm.lineage h.symm.unique,
    (h.imports.flatMap_right (·.chain)).mem_iff]

/-! ## Resolved classes -/

/-- The draft resolves to the class against a class of the pool, where no piece is remembered. -/
def ResolvesIn (pool : List Class) (d : Draft) (r : Resolved) : Prop :=
  ∃ base ∈ pool, base.name = d.superclass ∧ (({} : EntryPoints).resolve d base).1 = .ok r

section Resolve

variable {scope : List Class} {e : EntryPoints} {ds : List Draft} {rs : List Resolved}

theorem mem_names_append {scope : List Class} {c : Class} {n : String} :
    n ∈ (scope ++ [c]).map (·.name) ↔ n ∈ scope.map (·.name) ∨ n = c.name := by
  simp

/-- What drafts resolve to one after the other, each resolves to on its own. -/
theorem resolvesIn_of_resolveAll (hnames : ((scope ++ rs.map (·.cls)).map (·.name)).Nodup)
    (howned : ∀ k ∈ e.owned, k.1 ∈ scope.map (·.name)) (h : resolveAll scope e ds = .ok rs) :
    List.Forall₂ (ResolvesIn (scope ++ rs.map (·.cls))) ds rs := by
  induction ds generalizing scope e rs with
  | nil =>
    cases h
    exact .nil
  | cons d ds ih =>
    obtain ⟨base, r, e', rs', hbase, hres, hrest, rfl⟩ := resolveAll_cons_ok h
    have hok : (e.resolve d base).1 = .ok r := by rw [hres]
    have hname : r.cls.name = d.name := (EntryPoints.resolve_ok hok).1.name
    rw [List.map_cons, List.append_cons] at hnames ⊢
    -- no class in scope has the draft's name, so its class owns no piece yet
    have hfresh : d.name ∉ scope.map (·.name) := by
      intro hmem
      rw [List.map_append, List.map_append] at hnames
      refine List.disjoint_of_nodup_append hnames.of_append_left hmem ?_
      simp [hname]
    have hnew : ∀ k ∈ e.owned, k.1 ≠ d.name := fun k hk heq => hfresh (heq ▸ howned k hk)
    refine .cons ⟨base, ?_, key_of_find? (f := Class.name) hbase, ?_⟩ ?_
    · simp [List.mem_of_find?_eq_some hbase]
    · exact EntryPoints.resolve_congr (.of_owns_nothing hnew) hok
    · refine ih hnames (fun k hk => mem_names_append.2 ?_) hrest
      exact (EntryPoints.owned_resolve hnew hres k hk).imp (howned k) (·.trans hname.symm)

/-- What drafts resolve to each on its own, they resolve to one after the other, where each stands
behind the class that it extends. -/
theorem resolveAll_of_resolvesIn {pool : List Class} (hpool : (pool.map (·.name)).Nodup)
    (hperm : (scope ++ rs.map (·.cls)).Perm pool)
    (howned : ∀ k ∈ e.owned, k.1 ∈ scope.map (·.name))
    (hgrounded : ∀ l₁ d l₂, ds = l₁ ++ d :: l₂ →
      d.superclass ∈ scope.map (·.name) ∨ d.superclass ∈ l₁.map (·.name))
    (h : List.Forall₂ (ResolvesIn pool) ds rs) : resolveAll scope e ds = .ok rs := by
  induction h generalizing scope e with
  | nil => rfl
  | @cons d r ds rs hhead _ ih =>
    obtain ⟨base, hbase, hsuper, hres⟩ := hhead
    have hname : r.cls.name = d.name := (EntryPoints.resolve_ok hres).1.name
    have hnames := (hperm.map Class.name).nodup_iff.2 hpool
    rw [List.map_cons, List.append_cons] at hperm hnames
    have hscope : ((scope ++ [r.cls]).map Class.name).Nodup :=
      hnames.sublist ((List.sublist_append_left _ _).map _)
    rw [List.map_append] at hscope
    -- the class of the superclass's name in scope is that of the pool
    have hfound : classNamed? scope d.superclass = some base := by
      have hknown := (hgrounded [] d ds rfl).resolve_right List.not_mem_nil
      obtain ⟨x, hx, hxname⟩ := List.mem_map.1 hknown
      have hmem : x ∈ pool := hperm.subset (by simp [hx])
      obtain rfl := eq_of_key_eq (f := Class.name) hpool hmem hbase (hxname.trans hsuper.symm)
      rw [← hsuper]
      exact find?_key_of_mem hscope.of_append_left hx
    have hfresh : d.name ∉ scope.map (·.name) := fun hmem =>
      List.disjoint_of_nodup_append hscope hmem (by simp [hname])
    have hnew : ∀ k ∈ e.owned, k.1 ≠ d.name := fun k hk heq => hfresh (heq ▸ howned k hk)
    have hok := EntryPoints.resolve_congr (EntryPoints.Agrees.of_owns_nothing hnew).symm hres
    obtain ⟨e', hres'⟩ : ∃ e', e.resolve d base = (.ok r, e') := ⟨_, Prod.ext hok rfl⟩
    have hrest : resolveAll (scope ++ [r.cls]) e' ds = .ok rs := by
      refine ih hperm (fun k hk => mem_names_append.2 ?_) fun l₁ x l₂ hsplit => ?_
      · exact (EntryPoints.owned_resolve hnew hres' k hk).imp (howned k) (·.trans hname.symm)
      · rw [mem_names_append, hname]
        rcases hgrounded (d :: l₁) x l₂ (by rw [hsplit, List.cons_append]) with hold | hmem
        · exact .inl (.inl hold)
        · rcases List.mem_cons.1 hmem with heq | hmem
          · exact .inl (.inr heq)
          · exact .inr hmem
    simp only [resolveAll, hfound, hres', hrest, Except.map]

end Resolve

/-! ## Owners -/

namespace Builder.Resolves

variable {b : Builder} {drafts : List Draft} {rs : List Resolved}

/-- Where no two classes share an entry point, every claim succeeds. -/
theorem exists_owners (h : b.Resolves drafts rs) (himports : ∀ c ∈ b.imports, ∃ ds, Lineage ds c)
    (hfree : ∀ name first second, ¬ Shared (b.scope ++ rs.map (·.cls)) name first second) :
    ∃ inherited owners, Owners.ofClasses (sortByName b.scope) = .ok inherited ∧
      inherited.claimAll (rs.map fun r => (r.cls.name, entryNamesOf r)) = .ok owners := by
  -- a claim that fails, among the classes in scope or those of the module, shows a shared name
  cases hinherits : Owners.ofClasses (sortByName b.scope) with
  | error e =>
    obtain ⟨n, first, second, -, hne, hfirst, hsecond⟩ := Owners.claimAll_error hinherits
    rw [claimed_sortByName] at hfirst hsecond
    have hfirst := hfirst.resolve_left (by simp [Owners.owner?])
    exact absurd ⟨hne, introducedBy_append.2 (.inl hfirst), introducedBy_append.2 (.inl hsecond)⟩
      (hfree n first second)
  | ok inherited =>
    cases hclaims : inherited.claimAll (rs.map fun r => (r.cls.name, entryNamesOf r)) with
    | error e =>
      obtain ⟨n, first, second, -, hne, hfirst, hsecond⟩ := Owners.claimAll_error hclaims
      rw [claimed_resolved (h.entryNamesOf_perm himports)] at hfirst hsecond
      rw [owner?_ofClasses hinherits] at hfirst
      exact absurd ⟨hne, introducedBy_append.2 hfirst, introducedBy_append.2 (.inr hsecond)⟩
        (hfree n first second)
    | ok owners => exact ⟨inherited, owners, rfl, hclaims⟩

end Builder.Resolves

/-! ## What is generated -/

theorem unitsOf_eq_ok {catalog : Device.Catalog} {rs : List Resolved} {us : List ClassUnit} :
    unitsOf catalog rs = .ok us ↔ List.Forall₂ (fun r u => unitOf catalog r = .ok u) rs us := by
  induction rs generalizing us with
  | nil =>
    rw [unitsOf, Except.ok.injEq, List.forall₂_nil_left_iff]
    exact eq_comm
  | cons r rs ih =>
    rw [unitsOf, bind_eq_ok, List.forall₂_cons_left_iff]
    simp only [bind_eq_ok, pure_eq_ok, ih]
    constructor
    · rintro ⟨u, hu, us, hus, rfl⟩
      exact ⟨u, us, hu, hus, rfl⟩
    · rintro ⟨u, us, hu, hus, rfl⟩
      exact ⟨u, hu, us, hus, rfl⟩

/-- What is generated for a class depends on what is known of the classes with device copies. -/
theorem unitOf_congr {catalog catalog' : Device.Catalog} (h : catalog.Agrees catalog')
    (r : Resolved) : unitOf catalog r = unitOf catalog' r := by
  simp only [unitOf, h.routines_eq]

theorem catalogOf_agrees {classes classes' : List Class} (hperm : classes.Perm classes')
    (hnames : (classes.map (·.name)).Nodup) :
    (catalogOf classes).Agrees (catalogOf classes') :=
  Device.Catalog.agrees_foldl (hperm.filter _) (hnames.sublist (List.filter_sublist.map _))

/-! ## Both builds -/

/-- The drafts of the other builder can be ordered as well, and what each resolves to does not
depend on the order. -/
theorem Builder.Rearranged.exists_resolves {b b' : Builder} (h : b.Rearranged b')
    {drafts : List Draft} {rs : List Resolved} (hres : b.Resolves drafts rs) :
    ∃ drafts' rs', b'.Resolves drafts' rs' ∧ rs'.Perm rs := by
  have hnames := hres.names_nodup
  -- the other builder's drafts can be ordered too, and its order is a permutation of the first
  obtain ⟨drafts', hordered⟩ := exists_order
    ((orderable_of_order hres.ordered).perm (h.scope_perm.map Class.name) h.drafts)
  obtain ⟨hplaced, -⟩ := order_ok hordered
  obtain ⟨hgrounded, hfollows, -⟩ := order_follows hordered
  have hdrafts : drafts'.Perm drafts :=
    hplaced.trans (h.drafts.symm.trans (order_ok hres.ordered).1.symm)
  -- each draft is resolved to the same class as before, since that depends on what stands above it
  -- alone
  obtain ⟨rs', hall, hrs⟩ := List.perm_comp_forall₂ hdrafts
    (resolvesIn_of_resolveAll hnames (by simp [EntryPoints.owned]) hres.resolves)
  refine ⟨drafts', rs', ⟨h.config ▸ hres.named, fun d hd hco => ?_, hordered, ?_⟩, hrs⟩
  · exact h.config ▸ hres.coprocessor d (h.drafts.mem_iff.2 hd) hco
  · refine resolveAll_of_resolvesIn hnames (h.scope_perm.symm.append (hrs.map _))
      (by simp [EntryPoints.owned]) ?_ hall
    intro l₁ d l₂ hsplit
    have hd : d ∈ b'.drafts := hplaced.subset (by simp [hsplit])
    exact (hgrounded d hd).symm.imp_right (hfollows l₁ d l₂ hsplit)

/-- Where one builder builds so does the other, and its classes are the same but for their order. -/
theorem Builder.Rearranged.exists_build {b b' : Builder} (h : b.Rearranged b') {m : Module}
    (hbuild : b.build = .ok m) : ∃ m', b'.build = .ok m' ∧ m.classes.Perm m'.classes := by
  obtain ⟨s⟩ := build_ok hbuild
  obtain ⟨drafts', rs', hres', hrs⟩ := h.exists_resolves s.toResolves
  have hpool : (b'.scope ++ rs'.map (·.cls)).Perm (b.scope ++ s.resolved.map (·.cls)) :=
    h.scope_perm.symm.append (hrs.map _)
  -- the same classes introduce the same entry points, so no claim fails
  obtain ⟨inherited, owners, hinherits, hclaims⟩ :=
    hres'.exists_owners h.symm.lineage fun name first second hshared => by
      apply s.toResolves.not_shared h.lineage s.inherits s.claims name first second
      simpa only [Shared, IntroducedBy, hpool.mem_iff] using hshared
  -- the catalogs know the same object structs, so each class gets the same routines
  obtain ⟨us', hall', hus⟩ := List.perm_comp_forall₂ hrs (unitsOf_eq_ok.1 s.units)
  have hunits : unitsOf (catalogOf (b'.scope ++ rs'.map (·.cls))) rs' = .ok us' := by
    have hagrees := catalogOf_agrees hpool hres'.names_nodup
    exact unitsOf_eq_ok.2 (hall'.imp fun r u hu => (unitOf_congr hagrees r).trans hu)
  -- the generated names are the same as a set
  have huser : b'.checkUserNames ((us'.flatMap classVariables).map (·.name) ++ owners.names
      ++ us'.map (·.init.name)) = .ok () := by
    rw [Builder.checkUserNames_eq_ok, ← h.globals, ← h.functions]
    intro n hn hmem
    refine Builder.checkUserNames_eq_ok.1 s.userNames n hn ?_
    simp only [List.mem_append, s.toResolves.mem_owners_names h.lineage s.inherits s.claims,
      hres'.mem_owners_names h.symm.lineage hinherits hclaims, ← hpool.mem_iff,
      ((hus.flatMap_right classVariables).map _).mem_iff, (hus.map _).mem_iff] at hmem ⊢
    exact hmem
  refine ⟨{
    config := b'.config, kind := .user, classes := us'
    globals := us'.flatMap classVariables ++ b'.globals.items
    functions := b'.functions.items }, Stages.build ?_, hus.symm⟩
  exact {
    drafts := drafts', inherited, resolved := rs', owners, named := hres'.named
    coprocessor := Builder.checkCoprocessor_eq_ok.2 hres'.coprocessor, ordered := hres'.ordered
    inherits := hinherits, resolves := hres'.resolves, claims := hclaims, units := hunits
    userNames := huser, config := rfl, kind := rfl, globals := rfl, functions := rfl }

/-- Of two builders whose drafts and imports differ in their order alone, one builds exactly if the
other does. Then both modules have the same classes, each with everything that is generated for it,
and the users' globals and functions in the order in which they were declared. -/
theorem build_rearranged {b b' : Builder} (h : b.Rearranged b') :
    ((∃ m, b.build = .ok m) ↔ ∃ m', b'.build = .ok m') ∧
    ∀ m m', b.build = .ok m → b'.build = .ok m' →
      m.classes.Perm m'.classes ∧
      (∀ u ∈ m.classes, ∀ u' ∈ m'.classes, u.name = u'.name → u = u') ∧
      m.globals = m.classes.flatMap classVariables ++ b.globals.items ∧
      m'.globals = m'.classes.flatMap classVariables ++ b.globals.items ∧
      m.functions = b.functions.items ∧ m'.functions = b.functions.items ∧
      m.config = m'.config ∧ m.kind = m'.kind := by
  refine ⟨⟨fun ⟨m, hbuild⟩ => ?_, fun ⟨m, hbuild⟩ => ?_⟩, fun m m' hbuild hbuild' => ?_⟩
  · obtain ⟨m', hbuild', -⟩ := h.exists_build hbuild
    exact ⟨m', hbuild'⟩
  · obtain ⟨m', hbuild', -⟩ := h.symm.exists_build hbuild
    exact ⟨m', hbuild'⟩
  · -- a build has one result, so the module that must exist is the one at hand
    obtain ⟨m₁, hbuild₁, hperm⟩ := h.exists_build hbuild
    obtain rfl := Except.ok.inj (hbuild'.symm.trans hbuild₁)
    obtain ⟨s⟩ := build_ok hbuild
    obtain ⟨s'⟩ := build_ok hbuild'
    refine ⟨hperm, fun u hu u' hu' => ?_, s.globals, h.globals ▸ s'.globals, s.functions,
      h.functions ▸ s'.functions, ?_, s.kind.trans s'.kind.symm⟩
    · exact eq_of_key_eq s.unitNames_nodup hu (hperm.mem_iff.2 hu')
    · rw [s.config, s'.config, h.config]

namespace Sample

open Class.Sample

/-- A module with two classes, one above the other, and one that has nothing to do with them. -/
def slabs : Builder where
  config := { name := "slabs" }
  drafts := [square, { tile with coprocessor := false }, { name := "Edge" }]
  imports := shapes.classes ++ [rootClass]

/-- The same module, put together the other way round. -/
def slabsReversed : Builder :=
  { slabs with drafts := slabs.drafts.reverse, imports := slabs.imports.reverse }

theorem slabs_rearranged : slabs.Rearranged slabsReversed where
  config := rfl
  globals := rfl
  functions := rfl
  drafts := (List.reverse_perm _).symm
  imports := (List.reverse_perm _).symm
  lineage := by
    intro c hc
    rcases List.mem_append.1 hc with hshape | hroot
    · exact (available_imports c hshape).sound.lineage
    · exact ⟨[], List.mem_singleton.1 hroot ▸ .root⟩
  unique := by decide +kernel

end Sample

theorem build_rearranged_sample : ∃ m m', Sample.slabs.build = .ok m ∧
    Sample.slabsReversed.build = .ok m' ∧ m.classes.map (·.name) = ["Square", "Tile", "Edge"] ∧
    m.classes.Perm m'.classes ∧ ∀ u ∈ m.classes, ∀ u' ∈ m'.classes, u.name = u'.name → u = u' := by
  have hsorted : sortByName Sample.slabs.scope = Sample.slabs.scope :=
    List.mergeSort_of_pairwise (by decide +kernel)
  obtain ⟨m, hbuild, hnames⟩ : ∃ m, Sample.slabs.build = .ok m ∧
      m.classes.map (·.name) = ["Square", "Tile", "Edge"] := by
    refine exists_of_any_toOption ?_
    rw [Builder.build, hsorted]
    decide +kernel
  obtain ⟨hiff, hsame⟩ := build_rearranged Sample.slabs_rearranged
  obtain ⟨m', hbuild'⟩ := hiff.1 ⟨m, hbuild⟩
  obtain ⟨hperm, hunits, -⟩ := hsame m m' hbuild hbuild'
  exact ⟨m, m', hbuild, hbuild', hnames, hperm, hunits⟩

end Module

end ClassForge

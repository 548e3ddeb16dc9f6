import ClassForge.Proofs.Class.EntryPoint
import ClassForge.Proofs.Module.Build
import Mathlib.Data.List.Flatten

/-!
# Entry points of resolved classes

A module's class introduces an entry for each method that its draft defines under a name which the
table of its superclass lacks, and an override introduces none. What is made for a class are the
entry points of the entries that it introduces.
-/

namespace ClassForge.Module

open C ClassForge.Class

/-- Entry points that fit the signatures of entries are what the entries record. -/
theorem map_of_fits {owner : String} {es : List Method} {made : List Entry}
    (howner : ∀ e ∈ es, e.introducedBy = owner)
    (h : List.Forall₂ (EntryPoints.Fits owner) (es.map (·.signature)) made) :
    made.map (·.typedef) = es.map (fun e => { name := e.typedef, signature := e.signature }) ∧
      made.map (·.delegator.signature) = es.map (·.delegator) ∧
      made.map (·.superDelegator.signature) = es.map (·.superDelegator) := by
  induction es generalizing made with
  | nil =>
    cases h
    exact ⟨rfl, rfl, rfl⟩
  | cons e es ih =>
    obtain ⟨rfl, howner⟩ := List.forall_mem_cons.1 howner
    cases h with
    | cons hfits hrest =>
      obtain ⟨htypedefs, hdelegators, hsupers⟩ := ih howner hrest
      simp only [List.map_cons, hfits.typedef, hfits.delegator, hfits.superDelegator, htypedefs,
        hdelegators, hsupers]
      exact ⟨rfl, rfl, rfl⟩

/-- How a resolved class stands to the entries that it introduces: they are its draft's new
definitions, and its entry points are made for them. -/
structure Introduces (d : Draft) (base : Class) (r : Resolved) : Prop where
  lineage : ∃ ds, Lineage ds r.cls
  derives : d.Derives base r.cls
  introduced : r.cls.introduced = (newDefs base.methods d.methods).map (·.introduce d.name)
  fits : List.Forall₂ (EntryPoints.Fits r.cls.name) (r.cls.introduced.map (·.signature)) r.entries

/-- Each method that the draft defines is one that its superclass has. -/
def OnlyOverrides (d : Draft) (r : Resolved) : Prop :=
  ∃ base, r.cls.base? = some base ∧ ∀ f ∈ d.methods, ∃ m ∈ base.methods, m.name = f.name

namespace Introduces

variable {d : Draft} {base : Class} {r : Resolved}

/-- The entry points have the names and signatures that the table records. -/
theorem entries_eq (h : Introduces d base r) :
    r.entries.map (·.typedef)
        = r.cls.introduced.map (fun e => { name := e.typedef, signature := e.signature }) ∧
      r.entries.map (·.delegator.signature) = r.cls.introduced.map (·.delegator) ∧
      r.entries.map (·.superDelegator.signature) = r.cls.introduced.map (·.superDelegator) :=
  map_of_fits (fun _ he => beq_iff_eq.1 (List.mem_filter.1 he).2) h.fits

/-- Delegators and super-delegators are claimed in another order than the table has them. -/
theorem entryNamesOf_perm (h : Introduces d base r) : (entryNamesOf r).Perm r.cls.entryNames := by
  obtain ⟨-, hdelegators, hsupers⟩ := h.entries_eq
  have hnames := congrArg (List.map Signature.name) hdelegators
  have hsuperNames := congrArg (List.map Signature.name) hsupers
  rw [List.map_map, List.map_map] at hnames hsuperNames
  have hmade : entryNamesOf r = r.cls.introduced.map (·.delegator.name)
      ++ r.cls.introduced.map (·.superDelegator.name) := congrArg₂ (· ++ ·) hnames hsuperNames
  rw [hmade, List.map_eq_flatMap, List.map_eq_flatMap]
  exact List.flatMap_append_perm _ _ _

/-- The entry points of a class are those of its draft's new definitions. -/
theorem entryNames_eq (h : Introduces d base r) :
    r.cls.entryNames = (newDefs base.methods d.methods).flatMap fun f =>
      (f.introduce d.name).entryNames := by
  rw [entryNames, h.introduced, List.flatMap_map]

theorem entryNames_eq_nil (h : Introduces d base r) (hover : OnlyOverrides d r) :
    r.cls.entryNames = [] := by
  obtain ⟨base', hbase, hover⟩ := hover
  obtain rfl := Option.some.inj (h.derives.base?_eq.symm.trans hbase)
  have hnew : newDefs base.methods d.methods = [] := by
    refine List.eq_nil_iff_forall_not_mem.2 fun f hf => ?_
    obtain ⟨hmem, hnone⟩ := mem_newDefs.1 hf
    obtain ⟨m, hm, hname⟩ := hover f hmem
    exact hnone m hm hname
  rw [h.entryNames_eq, hnew, List.flatMap_nil]

/-- The entry points of a class have different names. -/
theorem entryNames_nodup (h : Introduces d base r) : r.cls.entryNames.Nodup := by
  obtain ⟨ds, hlin⟩ := h.lineage
  exact hlin.entryNames_nodup.sublist (List.filter_sublist.flatMap _)

end Introduces

/-- Every class that is resolved against a rooted scope introduces entries of its own and has entry
points for them. -/
theorem resolveAll_introduces {scope : List Class} {ds : List Draft} {rs : List Resolved}
    (hscope : Rooted scope) (hnodup : (ds.map (·.name)).Nodup)
    (hfresh : ∀ d ∈ ds, d.name ∉ scope.map (·.name)) (h : resolveAll scope {} ds = .ok rs) :
    List.Forall₂ (fun d r => ∃ base, Introduces d base r) ds rs := by
  -- what is remembered belongs to classes in scope, so nothing is for the next draft
  refine resolveAll_induct
    (I := fun scope e => Rooted scope ∧ ∀ k ∈ e.owned, k.1 ∈ scope.map (·.name)) ?_
    ⟨hscope, fun k hk => by simp [EntryPoints.owned] at hk⟩ hnodup hfresh h
  rintro scope e e' d base r ⟨hscope, howned⟩ hbase hfresh hres
  obtain ⟨hd, hentries⟩ := EntryPoints.resolve_ok (e := e) (by rw [hres])
  rw [hres] at hentries
  obtain ⟨⟨above, hlin⟩, hnew, hrooted⟩ := hscope.resolve hbase hfresh (e := e) (by rw [hres])
  have hadded : (((d.added base.methods).map (·.signature)).map (·.name)).Nodup := by
    rw [List.map_map]
    exact Draft.added_names_nodup hd.defs_nodup base.methods
  obtain ⟨hfits, howned'⟩ :=
    EntryPoints.entries_new hadded (fun m _ hmem => hfresh (howned _ hmem)) hentries
  have hintroduced := hlin.introduced_eq hd hnew
  have hlin' : Lineage (d :: above) r.cls := hlin.derive (e := e) (by rw [hres])
  refine ⟨⟨base, ⟨_, hlin'⟩, hd, hintroduced.trans (hlin.added_eq d), ?_⟩, hrooted, fun k hk => ?_⟩
  · rw [hintroduced, hd.name]
    exact hfits
  · rw [List.map_append, List.mem_append]
    rcases howned' k hk with hold | howner
    · exact .inl (howned k hold)
    · exact .inr (by simp [howner, hd.name])

/-- The entry points of a class of a module have the names and signatures that its table records, in
the order of the entries that the class introduces. -/
theorem Stages.entries_eq {b : Builder} {m : Module} (s : Stages b m)
    (himports : ∀ c ∈ b.imports, c.Sound) {u : ClassUnit} (hu : u ∈ m.classes) :
    u.typedefs = u.cls.introduced.map (fun e => { name := e.typedef, signature := e.signature }) ∧
      u.delegators.map (·.signature) = u.cls.introduced.map (·.delegator) ∧
      u.superDelegators.map (·.signature) = u.cls.introduced.map (·.superDelegator) := by
  obtain ⟨hperm, hnodup, hfresh⟩ := order_ok s.ordered
  obtain ⟨r, hr, hunit⟩ := s.exists_unitOf hu
  obtain ⟨hcls, hentries, -⟩ := unitOf_ok hunit
  obtain ⟨d, -, base, hintroduces⟩ := exists_of_forall₂ (resolveAll_introduces
    (closed_scope himports).rooted ((hperm.map _).nodup_iff.2 hnodup)
    (fun d hd => (hfresh d (hperm.subset hd)).2) s.resolves) hr
  rw [ClassUnit.typedefs, ClassUnit.delegators, ClassUnit.superDelegators, hentries, hcls,
    List.map_map, List.map_map]
  exact hintroduces.entries_eq

end ClassForge.Module

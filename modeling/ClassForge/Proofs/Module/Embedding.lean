import ClassForge.Proofs.Device.Catalog
import ClassForge.Proofs.Device.Descent
import ClassForge.Proofs.Module.Clash
import Mathlib.Data.List.Chain

/-!
# Classes that hold themselves by value

A build knows the object structs of all classes with device copies that are in scope. So nothing
keeps the routines of a class from being generated but a cycle: classes, from that class on, of
which each holds the next by value, and the last comes back to one before it.
-/

namespace ClassForge.Device.Catalog

open C ClassForge.Class

variable {cat : Catalog} {keep : Field → Bool} {path p : List String} {fs : List Field}
  {cls : String} {e : ModelError}

/-! ## Cycles -/

/-- Objects of the class `a` hold an object of the class `b` by value, in a field that satisfies
`keep`. -/
def Holding (cat : Catalog) (keep : Field → Bool) (a b : String) : Prop :=
  ∃ s, cat.layout? a = some s ∧ ∃ f ∈ (cat.plan s).fields, keep f = true ∧ f.kind = .embedded b

/-- From the class `cls` on each class of `p` holds the next by value. -/
structure Trail (cat : Catalog) (keep : Field → Bool) (cls : String) (p : List String) : Prop where
  starts : p.head? = some cls
  linked : p.IsChain (cat.Holding keep)

/-- The last class of such a list is one that was there before, the first for which that is so. -/
structure EmbeddingCycle (cat : Catalog) (keep : Field → Bool) (cls : String) (p : List String) :
    Prop extends cat.Trail keep cls p where
  returns : ∃ q last, p = q ++ [last] ∧ q.Nodup ∧ last ∈ q

theorem Trail.push {a b : String} (h : cat.Trail keep cls (path ++ [a]))
    (hab : cat.Holding keep a b) : cat.Trail keep cls (path ++ [a] ++ [b]) where
  starts := by
    rw [List.head?_append, h.starts]
    rfl
  linked := by
    rw [List.append_assoc]
    exact List.isChain_append_cons_cons.2 ⟨h.linked, hab, List.isChain_singleton b⟩

/-- What a field of a plan holds by value is an object of a class with device copies. -/
theorem isEnabled_of_embedded {s : StructType} {f : Field} (hf : f ∈ (cat.plan s).fields)
    (hk : f.kind = .embedded cls) : cat.isEnabled cls = true := by
  obtain ⟨t, -, hf⟩ := List.mem_flatMap.1 hf
  obtain ⟨v, -, rfl⟩ := List.mem_map.1 hf
  simp only [kind] at hk
  split at hk
  next cls' hbase _ =>
    obtain rfl := FieldKind.embedded.inj hk
    exact (Option.filter_eq_some_iff.1 hbase).2
  next => cases hk
  next => cases hk

/-- Where the object structs of all classes are known, a fault is a class that is on the path. -/
theorem Fault.exists_embedsItself
    (hknown : ∀ cls, cat.isEnabled cls = true → ∃ s, cat.layout? cls = some s) {s : StructType}
    (h : cat.Fault keep path (cat.plan s).fields e) : ∃ p, e = .embedsItself p := by
  generalize hfs : (cat.plan s).fields = fs at h
  induction h generalizing s with
  | again => exact ⟨_, rfl⟩
  | unknown hmem hf hk hpath hnone =>
    subst hfs
    obtain ⟨t, ht⟩ := hknown _ (isEnabled_of_embedded hmem hk)
    rw [hnone] at ht
    cases ht
  | within _ _ _ _ _ _ ih => exact ih rfl

/-- The path that is reported is such a cycle. -/
theorem Fault.embeddingCycle {a : String} {s : StructType}
    (h : cat.Fault keep (path ++ [a]) (cat.plan s).fields (.embedsItself p))
    (hs : cat.layout? a = some s) (htrail : cat.Trail keep cls (path ++ [a]))
    (hnodup : (path ++ [a]).Nodup) : cat.EmbeddingCycle keep cls p := by
  generalize hfs : (cat.plan s).fields = fs at h
  generalize hpath : path ++ [a] = whole at h
  generalize he : ModelError.embedsItself p = e at h
  -- by the fault: each class that it goes down into extends the trail by one
  induction h generalizing path a s with
  | @again _ f fs b hmem hf hk hagain =>
    subst hfs hpath
    cases he
    have hstep : cat.Holding keep a b := ⟨s, hs, f, hmem, hf, hk⟩
    exact { htrail.push hstep with returns := ⟨_, b, rfl, hnodup, hagain⟩ }
  | unknown => cases he
  | @within _ f fs b t e hmem hf hk hnew ht _ ih =>
    subst hfs hpath
    have hstep : cat.Holding keep a b := ⟨s, hs, f, hmem, hf, hk⟩
    refine ih ht (htrail.push hstep) ?_ rfl rfl he
    exact hnodup.append (List.nodup_singleton b) (List.disjoint_singleton.2 hnew)

/-- A list along which each class holds the next, and which comes back, does not get by without a
fault. -/
theorem exists_fault {rest : List String} {a : String} {s : StructType}
    (hs : cat.layout? a = some s) (hnodup : (path ++ [a]).Nodup)
    (hlinked : (a :: rest).IsChain (cat.Holding keep)) (hback : ¬ (path ++ [a] ++ rest).Nodup) :
    ∃ e, cat.Fault keep (path ++ [a]) (cat.plan s).fields e := by
  induction rest generalizing path a s with
  | nil => exact absurd (by rwa [List.append_nil]) hback
  | cons b rest ih =>
    obtain ⟨⟨s', hs', f, hmem, hf, hk⟩, hrest⟩ := List.isChain_cons_cons.1 hlinked
    obtain rfl := Option.some.inj (hs.symm.trans hs')
    -- the walk along the cycle ends no later than where a class comes back
    by_cases hagain : b ∈ path ++ [a]
    · exact ⟨_, .again hmem hf hk hagain⟩
    · cases ht : cat.layout? b with
      | none => exact ⟨_, .unknown hmem hf hk hagain ht⟩
      | some t =>
        have hnodup' := hnodup.append (List.nodup_singleton b) (List.disjoint_singleton.2 hagain)
        obtain ⟨e, he⟩ := ih ht hnodup' hrest (by simpa using hback)
        exact ⟨e, .within hmem hf hk hagain ht he⟩

end ClassForge.Device.Catalog

namespace ClassForge.Module

open C ClassForge.Class ClassForge.Device

/-! ## The catalog of a build -/

theorem isEnabled_catalogOf {classes : List Class} {cls : String} :
    (catalogOf classes).isEnabled cls = true ↔
      ∃ c ∈ classes, c.coprocessor = true ∧ c.name = cls := by
  rw [catalogOf, Catalog.isEnabled_foldl]
  simp [Catalog.isEnabled, and_assoc]

theorem layout?_catalogOf {classes : List Class} (hnames : (classes.map (·.name)).Nodup)
    {cls : String} {s : StructType} : (catalogOf classes).layout? cls = some s ↔
      ∃ c ∈ classes, c.coprocessor = true ∧ c.name = cls ∧ c.object = s := by
  have hfilter : ((classes.filter (·.coprocessor)).map (·.name)).Nodup :=
    hnames.sublist (List.filter_sublist.map _)
  rw [catalogOf, Catalog.layout?_foldl hfilter]
  simp [Catalog.layout?, and_assoc]

namespace Builder.Resolves

variable {b : Builder} {drafts : List Draft} {rs : List Resolved} {cat : Catalog}

/-- A class of the module that has device copies is in the catalog, with its object struct. -/
theorem layout?_of_mem (h : b.Resolves drafts rs)
    (hcat : cat = catalogOf (b.scope ++ rs.map (·.cls))) {r : Resolved} (hr : r ∈ rs)
    (hco : r.cls.coprocessor = true) : cat.layout? r.cls.name = some r.cls.object := by
  rw [hcat, layout?_catalogOf h.names_nodup]
  exact ⟨r.cls, List.mem_append_right _ (List.mem_map_of_mem hr), hco, rfl, rfl⟩

theorem exists_layout? (h : b.Resolves drafts rs)
    (hcat : cat = catalogOf (b.scope ++ rs.map (·.cls))) {cls : String}
    (hcls : cat.isEnabled cls = true) : ∃ s, cat.layout? cls = some s := by
  rw [hcat, isEnabled_catalogOf] at hcls
  obtain ⟨c, hc, hco, hname⟩ := hcls
  refine ⟨c.object, ?_⟩
  rw [hcat, layout?_catalogOf h.names_nodup]
  exact ⟨c, hc, hco, hname, rfl⟩

/-- In a build the routines of a class fail just where a cycle of classes that hold each other by
value is reached from it, and the cycle is reported. -/
theorem routines_error_iff (h : b.Resolves drafts rs)
    (hcat : cat = catalogOf (b.scope ++ rs.map (·.cls))) {r : Resolved} (hr : r ∈ rs)
    (hco : r.cls.coprocessor = true) :
    ((∃ e, cat.routines r.cls = .error e) ↔
      ∃ p, cat.EmbeddingCycle (goesInto r.cls) r.cls.name p) ∧
    ∀ e, cat.routines r.cls = .error e →
      ∃ p, e = .embedsItself p ∧ cat.EmbeddingCycle (goesInto r.cls) r.cls.name p := by
  have hlayout := h.layout?_of_mem hcat hr hco
  have hreport : ∀ e, cat.routines r.cls = .error e →
      ∃ p, e = .embedsItself p ∧ cat.EmbeddingCycle (goesInto r.cls) r.cls.name p := by
    intro e he
    have hfault : cat.Fault (goesInto r.cls) ([] ++ [r.cls.name])
        (cat.plan r.cls.object).fields e := Catalog.fault_of_routines_error he
    -- every class that a field embeds is in scope, so its layout is known
    obtain ⟨p, rfl⟩ := hfault.exists_embedsItself fun cls => h.exists_layout? hcat
    have hstart : cat.Trail (goesInto r.cls) r.cls.name ([] ++ [r.cls.name]) :=
      ⟨rfl, List.isChain_singleton _⟩
    exact ⟨p, rfl, hfault.embeddingCycle hlayout hstart (List.nodup_singleton _)⟩
  refine ⟨⟨fun ⟨e, he⟩ => ?_, fun ⟨p, hp⟩ => ?_⟩, hreport⟩
  · obtain ⟨p, -, hp⟩ := hreport e he
    exact ⟨p, hp⟩
  · rw [Catalog.exists_routines_error_iff]
    obtain ⟨rest, rfl⟩ : ∃ rest, p = r.cls.name :: rest := List.head?_eq_some_iff.1 hp.starts
    -- the last class of the cycle is one of those in front of it
    have hback : ¬ ([] ++ [r.cls.name] ++ rest).Nodup := by
      obtain ⟨q, last, hsplit, -, hlast⟩ := hp.returns
      rw [List.nil_append, List.singleton_append, hsplit]
      exact fun hnodup =>
        List.disjoint_of_nodup_append hnodup hlast (List.mem_singleton_self last)
    exact Catalog.exists_fault hlayout (List.nodup_singleton _) hp.linked hback

end Builder.Resolves

/-! ## The verdict -/

/-- For a class with device copies the routines fail just where there is a fault below the fields
that a generated routine goes into: all of them for the one that copies to the device, else those
that come back for the other, and none where the class brings functions of its own for both. Each
descent ends, with the expansion, and leaves the path as it was where it succeeds, so that fields
can be expanded together just where each can be alone. In a build the object structs of all classes
with device copies are known, and the routines of a class of the module fail just where there is
a cycle of classes, each holding the next by value. -/
theorem routines_fail_iff :
    (∀ (ds : List Draft) (d : Draft) (c : Class), Lineage (d :: ds) c → d.coprocessor = true →
      ∀ cat : Catalog,
        (∀ method ∈ copyMethods, isGenerated c method = true ↔ ¬ BringsOwn c method) ∧
        ((∃ e, cat.routines c = .error e) ↔
          ∃ e, cat.Fault (goesInto c) [c.name] (cat.plan c.object).fields e) ∧
        ∀ e, cat.routines c = .error e →
          cat.Fault (goesInto c) [c.name] (cat.plan c.object).fields e) ∧
    (∀ (cat : Catalog) (keep : Field → Bool) (path : List String) (fs : List Field),
      (∃ path', cat.Descends keep path fs (cat.expand keep path fs) path') ∧
      (∀ result path', cat.Descends keep path fs result path' →
        result = cat.expand keep path fs ∧ ∀ es, result = .ok es → path' = path) ∧
      ((∃ es, cat.expand keep path fs = .ok es) ↔
        ∀ f ∈ fs, ∃ es, cat.expand keep path [f] = .ok es)) ∧
    ∀ (b : Builder) (drafts : List Draft) (rs : List Resolved) (cat : Catalog),
      b.Resolves drafts rs → cat = catalogOf (b.scope ++ rs.map (·.cls)) →
      (∀ cls, cat.isEnabled cls = true → ∃ s, cat.layout? cls = some s) ∧
      ∀ r ∈ rs, r.cls.coprocessor = true →
        ((∃ e, cat.routines r.cls = .error e) ↔
          ∃ p, cat.EmbeddingCycle (goesInto r.cls) r.cls.name p) ∧
        ∀ e, cat.routines r.cls = .error e →
          ∃ p, e = .embedsItself p ∧ cat.EmbeddingCycle (goesInto r.cls) r.cls.name p := by
  refine ⟨fun ds d c h hco cat => ?_, fun cat keep path fs => ?_, fun b drafts rs cat h hcat => ?_⟩
  · exact ⟨fun method hcopy => isGenerated_iff h hco hcopy, Catalog.exists_routines_error_iff,
      fun e => Catalog.fault_of_routines_error⟩
  · exact ⟨cat.exists_descends keep path fs, fun result path' h => h.eq_expand,
      Catalog.exists_expand_ok_iff_forall⟩
  · exact ⟨fun cls => h.exists_layout? hcat, fun r hr hco => h.routines_error_iff hcat hr hco⟩

namespace Sample

/-- A class with device copies that holds two objects of one class by value, side by side. -/
def wheelPair : Draft where
  name := "WheelPair"
  fields :=
    [{ name := "left", type := .struct "Disc" }, { name := "right", type := .struct "Disc" }]
  coprocessor := true

/-- The object struct of a class without objects in it. -/
def discObject : StructType :=
  .extension "Disc" Root.object [{ name := "radius", type := .int }]

def discs : Catalog :=
  { enabled := ["Disc", "WheelPair"], layouts := [("Disc", discObject)] }

/-- A class with device copies whose objects hold an object of their own class. -/
def nest : Draft where
  name := "Nest"
  fields := [{ name := "inner", type := .struct "Nest" }]
  coprocessor := true

def nests : Builder where
  config := ({ name := "nests" } : Config).withCoprocessor true
  drafts := [nest]

def nestsCatalog (rs : List Resolved) : Catalog :=
  catalogOf (nests.scope ++ rs.map (·.cls))

/-- Two discs do not get in each other's way. -/
theorem not_fault_discs {keep : Field → Bool} {e : ModelError} :
    ¬ discs.Fault keep ["WheelPair"]
      (discs.plan (.extension "WheelPair" Root.object wheelPair.fields)).fields e := by
  have hpair : ∀ f ∈ (discs.plan (.extension "WheelPair" Root.object wheelPair.fields)).fields,
      f.kind = .embedded "Disc" := by decide
  have hdisc : ∀ f ∈ (discs.plan discObject).fields, f.kind = .plain false := by decide
  intro hfault
  obtain ⟨f, hf, hfault⟩ := hfault.exists_mem
  obtain ⟨-, cls, hk, hbelow⟩ := hfault.of_singleton
  obtain rfl := FieldKind.embedded.inj ((hpair f hf).symm.trans hk)
  obtain ⟨g, hg, hfault⟩ := (hbelow (by decide) discObject (by decide)).exists_mem
  obtain ⟨-, _, hk', -⟩ := hfault.of_singleton
  rw [hdisc g hg] at hk'
  cases hk'

theorem nests_resolves : ∃ drafts rs, nests.Resolves drafts rs ∧ ∃ r ∈ rs,
    r.cls.coprocessor = true ∧ r.cls.name = "Nest" ∧
      (nestsCatalog rs).Holding (goesInto r.cls) "Nest" "Nest" := by
  obtain ⟨rs, hres, r, hr, hco, hname, hlayout, hfield⟩ := exists_of_any_toOption
    (x := do resolveAll nests.scope {} (← order nests.drafts (nests.scope.map (·.name))))
    (P := fun rs => ∃ r ∈ rs, r.cls.coprocessor = true ∧ r.cls.name = "Nest" ∧
      (nestsCatalog rs).layout? "Nest" = some r.cls.object ∧
      ∃ f ∈ ((nestsCatalog rs).plan r.cls.object).fields,
        goesInto r.cls f = true ∧ f.kind = .embedded "Nest") (by decide +kernel)
  obtain ⟨drafts, hordered, hres⟩ := bind_eq_ok.1 hres
  exact ⟨drafts, rs, ⟨by decide +kernel, by decide, hordered, hres⟩, r, hr, hco, hname, _, hlayout,
    hfield⟩

end Sample

theorem routines_fail_iff_sample :
    (∃ c routines, Lineage [Sample.wheelPair] c ∧ Sample.discs.routines c = .ok routines) ∧
    ∃ drafts rs, Sample.nests.Resolves drafts rs ∧ ∃ r ∈ rs, r.cls.name = "Nest" ∧
      ∃ p, (Sample.nestsCatalog rs).routines r.cls = .error (.embedsItself p) := by
  obtain ⟨hclass, -, hbuild⟩ := routines_fail_iff
  constructor
  · obtain ⟨c, hc, hname, hobject⟩ := exists_of_any_toOption (x := resolveChain [Sample.wheelPair])
      (P := fun c => c.name = "WheelPair" ∧
        c.object = .extension "WheelPair" Root.object Sample.wheelPair.fields) (by decide +kernel)
    have hlin := Lineage.of_resolveChain hc
    obtain ⟨-, hfails, -⟩ := hclass [] Sample.wheelPair c hlin rfl Sample.discs
    rw [hname, hobject] at hfails
    cases hroutines : Sample.discs.routines c with
    | ok routines => exact ⟨c, routines, hlin, hroutines⟩
    | error e =>
      obtain ⟨e', hfault⟩ := hfails.1 ⟨e, hroutines⟩
      exact absurd hfault Sample.not_fault_discs
  · obtain ⟨drafts, rs, hres, r, hr, hco, hname, hholds⟩ := Sample.nests_resolves
    obtain ⟨-, hroutines⟩ := hbuild Sample.nests drafts rs (Sample.nestsCatalog rs) hres rfl
    obtain ⟨hfails, hreport⟩ := hroutines r hr hco
    rw [hname] at hfails hreport
    have hcycle :
        (Sample.nestsCatalog rs).EmbeddingCycle (goesInto r.cls) "Nest" ["Nest", "Nest"] :=
      { starts := rfl
        linked := List.isChain_pair.2 hholds
        returns := ⟨["Nest"], "Nest", rfl, List.nodup_singleton _, List.mem_singleton_self _⟩ }
    obtain ⟨e, he⟩ := hfails.2 ⟨_, hcycle⟩
    obtain ⟨p, rfl, -⟩ := hreport e he
    exact ⟨drafts, rs, hres, r, hr, hname, p, he⟩

end ClassForge.Module

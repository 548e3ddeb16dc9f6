import ClassForge.Proofs.Class.Precedence
import Mathlib.Data.List.Chain
import Mathlib.Data.List.TakeWhile
import Mathlib.Logic.Relation

/-!
# When drafts can be ordered

Drafts can be ordered exactly if each extends one class that exists, no name is given twice and no
class is above itself. Where the last of these fails a climb comes back to its own path, and the
cycle that is reported is the part of the path from there on.
-/

namespace ClassForge.Class

/-- `p` is a draft of the class that `d` extends. -/
def Extends (drafts : List Draft) (d p : Draft) : Prop :=
  p ∈ drafts ∧ p.name = d.superclass

/-- What drafts have to be like to be ordered, given the names of the classes that exist. -/
structure Orderable (known : List String) (drafts : List Draft) : Prop where
  single : ∀ d ∈ drafts, d.superclasses.length ≤ 1
  distinct : (drafts.map (·.name)).Nodup
  fresh : ∀ d ∈ drafts, d.name ∉ known
  grounded : ∀ d ∈ drafts, d.superclass ∈ drafts.map (·.name) ∨ d.superclass ∈ known
  /-- No draft is above itself. -/
  acyclic : ∀ d ∈ drafts, ¬ Relation.TransGen (Extends drafts) d d

/-! ## The checks in front -/

theorem checkNames_of {known earlier : List String} {ds : List Draft}
    (hsingle : ∀ d ∈ ds, d.superclasses.length ≤ 1) (hnodup : (ds.map (·.name)).Nodup)
    (hfresh : ∀ d ∈ ds, d.name ∉ known ∧ d.name ∉ earlier) :
    checkNames known earlier ds = .ok () := by
  induction ds generalizing earlier with
  | nil => rfl
  | cons d ds ih =>
    obtain ⟨hd, hnodup⟩ := List.nodup_cons.1 (List.map_cons ▸ hnodup)
    have hone := hsingle d List.mem_cons_self
    obtain ⟨hknown, hearlier⟩ := hfresh d List.mem_cons_self
    rw [checkNames, if_neg (by omega), if_neg (not_or.2 ⟨hearlier, hknown⟩)]
    -- behind `d` its name is one of the earlier ones, which no name there equals
    refine ih (fun x hx => hsingle x (List.mem_cons_of_mem _ hx)) hnodup fun x hx => ?_
    obtain ⟨hxk, hxe⟩ := hfresh x (List.mem_cons_of_mem _ hx)
    refine ⟨hxk, fun hmem => ?_⟩
    rcases List.mem_append.1 hmem with hold | hnew
    · exact hxe hold
    · exact hd (List.mem_singleton.1 hnew ▸ List.mem_map_of_mem hx)

theorem checkNames_ne_cyclic {known earlier cycle : List String} {ds : List Draft} :
    checkNames known earlier ds ≠ .error (.cyclicInheritance cycle) := by
  induction ds generalizing earlier with
  | nil => simp [checkNames]
  | cons d ds ih =>
    rw [checkNames]
    split
    · simp
    · split
      · simp
      · exact ih

theorem checkSuperclasses_ne_cyclic {names cycle : List String} {ds : List Draft} :
    checkSuperclasses names ds ≠ .error (.cyclicInheritance cycle) := by
  induction ds with
  | nil => simp [checkSuperclasses]
  | cons d ds ih =>
    rw [checkSuperclasses]
    split
    · exact ih
    · simp

/-! ## Cycles -/

/-- `ds` are drafts of different names through which one comes from the class `name` back to it. -/
structure Cycle (drafts : List Draft) (name : String) (ds : List Draft) : Prop where
  nonempty : ds ≠ []
  subset : ds ⊆ drafts
  distinct : (ds.map (·.name)).Nodup
  ascends : Ascends name ds name

/-- A climb that fails has gone round a cycle, and reports it. -/
theorem climb_error {drafts unvisited path : List Draft} {name start : String} {e : ModelError}
    (hunvisited : unvisited ⊆ drafts) (hpath : path ⊆ drafts)
    (hdistinct : ((path ++ unvisited).map (·.name)).Nodup) (hascends : Ascends start path name)
    (h : climb unvisited path name = .error e) :
    ∃ ds top, Cycle drafts top ds ∧ e = .cyclicInheritance (ds.map (·.name) ++ [top]) := by
  induction unvisited, path, name using climb.induct with
  | case1 unvisited path name d hfind ih =>
    rw [climb_some path hfind] at h
    have hnodup : (unvisited.map (·.name)).Nodup :=
      hdistinct.sublist ((List.sublist_append_right _ _).map _)
    obtain rfl : d.name = name := key_of_find? (f := Draft.name) hfind
    refine ih (fun x hx => hunvisited (List.mem_filter.1 hx).1) ?_ ?_ hascends.append h
    · intro x hx
      rcases List.mem_append.1 hx with hold | hnew
      · exact hpath hold
      · exact List.mem_singleton.1 hnew ▸ hunvisited (List.mem_of_find?_eq_some hfind)
    · rw [List.append_assoc, List.singleton_append]
      exact (((perm_cons_without hnodup hfind).append_left path).map _).nodup_iff.1 hdistinct
  | case2 unvisited path name hnone hcycle =>
    rw [climb_none path hnone, if_pos hcycle] at h
    cases h
    -- the path splits at the draft that the climb has come back to
    obtain ⟨x, hx, hname⟩ := List.any_eq_true.1 hcycle
    have hdrop : path.dropWhile (·.name != name) ≠ [] := by
      intro hnil
      have hall := List.dropWhile_eq_nil_iff.1 hnil x hx
      simp [bne, hname] at hall
    obtain ⟨d, ds, hds⟩ := List.exists_cons_of_ne_nil hdrop
    have hd : d.name = name := by
      have hhead := List.head_dropWhile_not (p := fun y : Draft => y.name != name) hdrop
      simpa [hds] using hhead
    have hsplit : path = path.takeWhile (·.name != name) ++ d :: ds := by
      rw [← hds, List.takeWhile_append_dropWhile]
    refine ⟨d :: ds, name, ⟨by simp, ?_, ?_, ?_⟩, by rw [hds]⟩
    · intro y hy
      exact hpath (hsplit ▸ List.mem_append_right _ hy)
    · rw [List.map_append] at hdistinct
      have hnodup := hdistinct.of_append_left
      rw [hsplit, List.map_append] at hnodup
      exact hnodup.of_append_right
    · rw [hsplit] at hascends
      exact hd ▸ hascends.of_append
  | case3 unvisited path name hnone hcycle =>
    rw [climb_none path hnone, if_neg hcycle] at h
    cases h

/-- So it is where drafts cannot be placed. -/
theorem place_error {drafts unvisited starts : List Draft} {e : ModelError}
    (hunvisited : unvisited ⊆ drafts) (hdistinct : (unvisited.map (·.name)).Nodup)
    (h : place unvisited starts = .error e) :
    ∃ ds top, Cycle drafts top ds ∧ e = .cyclicInheritance (ds.map (·.name) ++ [top]) := by
  -- by the drafts to start from; what is left to visit shrinks with each climb that succeeds
  induction starts generalizing unvisited with
  | nil => cases h
  | cons start starts ih =>
    simp only [place] at h
    split at h
    next =>
      cases hclimb : climb unvisited [] start.name with
      -- the climb from `start` meets a draft again
      | error err =>
        rw [hclimb] at h
        cases h
        have hstay : Ascends start.name [] start.name := rfl
        exact climb_error hunvisited (List.nil_subset _) hdistinct hstay hclimb
      | ok found =>
        obtain ⟨p, rest⟩ := found
        obtain ⟨hperm, -⟩ := climb_ok hdistinct hclimb
        cases hplace : place rest starts with
        | error err =>
          rw [hclimb] at h
          simp only [bind, Except.bind, hplace] at h
          cases h
          -- the climb took its path out and left the rest, so that is still among the drafts
          refine ih (fun x hx => hunvisited ?_) ?_ hplace
          · exact hperm.subset (List.mem_append_right _ hx)
          · exact ((hperm.map _).nodup_iff.2 hdistinct).sublist
              ((List.sublist_append_right _ _).map _)
        | ok out =>
          rw [hclimb] at h
          simp only [bind, Except.bind, hplace] at h
          cases h
    -- `start` was placed by a climb before
    next => exact ih hunvisited hdistinct h

/-- What one arrives at from the superclass of a draft is above the draft. -/
theorem transGen_of_ascends {drafts ds : List Draft} {d p : Draft} (hds : ds ⊆ drafts)
    (hp : p ∈ drafts) (h : Ascends d.superclass ds p.name) :
    Relation.TransGen (Extends drafts) d p := by
  induction ds generalizing d with
  | nil => exact .single ⟨hp, h.symm⟩
  | cons x xs ih =>
    have hx : Extends drafts d x := ⟨hds List.mem_cons_self, h.1⟩
    exact .head hx (ih (fun y hy => hds (List.mem_cons_of_mem _ hy)) h.2)

namespace Cycle

variable {drafts ds : List Draft} {name : String}

/-- The first draft of a cycle is above itself. -/
theorem exists_transGen (h : Cycle drafts name ds) :
    ∃ d ∈ drafts, Relation.TransGen (Extends drafts) d d := by
  obtain ⟨d, ds, rfl⟩ := List.exists_cons_of_ne_nil h.nonempty
  obtain ⟨rfl, hup⟩ := h.ascends
  have hd := h.subset List.mem_cons_self
  exact ⟨d, hd, transGen_of_ascends (fun x hx => h.subset (List.mem_cons_of_mem _ hx)) hd hup⟩

end Cycle

/-- The names that an ascent passes, up to where it arrives: each is followed by the name of its
superclass. -/
theorem Ascends.isChain {drafts ds : List Draft} {name top : String} (h : Ascends name ds top)
    (hds : ds ⊆ drafts) : (ds.map (·.name) ++ [top]).head? = some name ∧
      (ds.map (·.name) ++ [top]).IsChain fun n m => ∃ d ∈ drafts, d.name = n ∧ d.superclass = m := by
  induction ds generalizing name with
  | nil =>
    obtain rfl : name = top := h
    simp
  | cons d ds ih =>
    obtain ⟨rfl, h⟩ := h
    obtain ⟨hhead, hchain⟩ := ih h fun x hx => hds (List.mem_cons_of_mem _ hx)
    rw [List.map_cons, List.cons_append]
    refine ⟨rfl, List.isChain_cons.2 ⟨fun m hm => ?_, hchain⟩⟩
    rw [hhead] at hm
    exact ⟨d, hds List.mem_cons_self, rfl, Option.some.inj hm⟩

/-! ## Orders and cycles -/

/-- Where superclasses come first, a draft above another stands in front of it. -/
theorem idxOf_lt_of_transGen {drafts out : List Draft} (hperm : out.Perm drafts)
    (hdistinct : (drafts.map (·.name)).Nodup) (h : Follows (drafts.map (·.name)) out) {d p : Draft}
    (hd : d ∈ drafts) (hp : Relation.TransGen (Extends drafts) d p) :
    out.idxOf p < out.idxOf d := by
  have hout : (out.map (·.name)).Nodup := (hperm.map _).nodup_iff.2 hdistinct
  have hstep : ∀ {d p : Draft}, d ∈ drafts → Extends drafts d p → out.idxOf p < out.idxOf d := by
    rintro d p hd ⟨hp, hname⟩
    obtain ⟨l₁, l₂, rfl⟩ := List.append_of_mem (hperm.symm.subset hd)
    -- the superclass is a draft, so it stands in front of `d`, and `d` stands there once
    have hmem := h l₁ d l₂ rfl (hname ▸ List.mem_map_of_mem hp)
    obtain ⟨x, hx, hxname⟩ := List.mem_map.1 hmem
    obtain rfl : x = p := eq_of_key_eq (f := Draft.name) hout (List.mem_append_left _ hx)
      (hperm.symm.subset hp) (hxname.trans hname.symm)
    have hfront : d ∉ l₁ := fun hmem =>
      List.disjoint_of_nodup_append hout.of_map hmem List.mem_cons_self
    rw [List.idxOf_append_of_mem hx, List.idxOf_append_of_notMem hfront]
    exact Nat.lt_add_right _ (List.idxOf_lt_length_of_mem hx)
  induction hp with
  | single hext => exact hstep hd hext
  | tail hup hext ih =>
    obtain ⟨_, -, hlast⟩ := Relation.TransGen.tail'_iff.1 hup
    exact Nat.lt_trans (hstep hlast.1 hext) ih

theorem exists_order {drafts : List Draft} {known : List String} (h : Orderable known drafts) :
    ∃ out, order drafts known = .ok out := by
  have hnames : checkNames known [] drafts = .ok () :=
    checkNames_of h.single h.distinct fun d hd => ⟨h.fresh d hd, by simp⟩
  have hsupers : checkSuperclasses (drafts.map (·.name) ++ known) drafts = .ok () :=
    checkSuperclasses_eq_ok.2 fun d hd => List.mem_append.2 (h.grounded d hd)
  cases hplace : place drafts drafts with
  | ok out => exact ⟨out, by simp [order, hnames, hsupers, hplace, bind, Except.bind]⟩
  | error e =>
    obtain ⟨ds, top, hcycle, -⟩ := place_error (List.Subset.refl _) h.distinct hplace
    obtain ⟨d, hd, hself⟩ := hcycle.exists_transGen
    exact absurd hself (h.acyclic d hd)

/-- An order that is found leaves no draft above itself. -/
theorem orderable_of_order {drafts out : List Draft} {known : List String}
    (h : order drafts known = .ok out) : Orderable known drafts := by
  obtain ⟨hperm, hdistinct, hall⟩ := order_ok h
  obtain ⟨hgrounded, hfollows, -⟩ := order_follows h
  exact {
    single := fun d hd => (hall d hd).1
    distinct := hdistinct
    fresh := fun d hd => (hall d hd).2
    grounded := hgrounded
    acyclic := fun d hd hself =>
      Nat.lt_irrefl _ (idxOf_lt_of_transGen hperm hdistinct hfollows hd hself) }

/-- A cycle is reported only where one has been gone round. -/
theorem exists_cycle_of_order {drafts : List Draft} {known cycle : List String}
    (h : order drafts known = .error (.cyclicInheritance cycle)) :
    ∃ ds top, Cycle drafts top ds ∧ cycle = ds.map (·.name) ++ [top] := by
  unfold order at h
  cases hnames : checkNames known [] drafts with
  | error e =>
    rw [hnames] at h
    cases h
    -- only the last of the three steps reports cycles
    exact absurd hnames checkNames_ne_cyclic
  | ok _ =>
    cases hsupers : checkSuperclasses (drafts.map (·.name) ++ known) drafts with
    | error e =>
      simp only [hnames, hsupers, bind, Except.bind] at h
      cases h
      exact absurd hsupers checkSuperclasses_ne_cyclic
    | ok _ =>
      simp only [hnames, hsupers, bind, Except.bind] at h
      obtain ⟨ds, top, hcycle, heq⟩ :=
        place_error (List.Subset.refl _) (checkNames_ok hnames).1 h
      exact ⟨ds, top, hcycle, ModelError.cyclicInheritance.inj heq⟩

/-- Drafts are put in order exactly if each extends one class at most, their names are different and
no names of classes that exist, each extends a draft or a class that exists, and none is above
itself. A cycle that is reported starts and ends with one name and repeats no other; its names are
names of drafts, and each is followed by the name of its superclass. -/
theorem order_decides (drafts : List Draft) (known : List String) :
    ((∃ out, order drafts known = .ok out) ↔ Orderable known drafts) ∧
    ∀ cycle, order drafts known = .error (.cyclicInheritance cycle) →
      2 ≤ cycle.length ∧ (∀ n ∈ cycle, n ∈ drafts.map (·.name)) ∧
      (cycle.IsChain fun n m => ∃ d ∈ drafts, d.name = n ∧ d.superclass = m) ∧
      cycle.head? = cycle.getLast? ∧ cycle.dropLast.Nodup := by
  refine ⟨⟨fun ⟨_, h⟩ => orderable_of_order h, exists_order⟩, fun cycle h => ?_⟩
  obtain ⟨ds, top, hcycle, rfl⟩ := exists_cycle_of_order h
  obtain ⟨hhead, hchain⟩ := hcycle.ascends.isChain hcycle.subset
  have htop : top ∈ ds.map (·.name) := by
    obtain ⟨d, ds, rfl⟩ := List.exists_cons_of_ne_nil hcycle.nonempty
    exact List.mem_cons.2 (.inl hcycle.ascends.1.symm)
  have hpos := List.length_pos_of_mem htop
  refine ⟨?_, fun n hn => ?_, hchain, ?_, ?_⟩
  · -- the path is not empty, and its first name comes back at the end
    rw [List.length_append, List.length_singleton]
    omega
  · have hmem : n ∈ ds.map (·.name) := by
      rcases List.mem_append.1 hn with hold | hlast
      · exact hold
      · exact List.mem_singleton.1 hlast ▸ htop
    exact List.map_subset _ hcycle.subset hmem
  · -- it opens and closes with the draft that was met twice
    rw [hhead, List.getLast?_concat]
  · rw [List.dropLast_concat]
    exact hcycle.distinct

/-- Two classes that extend each other, and one below them. -/
def Sample.loop : List Draft :=
  [{ name := "A", superclasses := ["B"] }, { name := "B", superclasses := ["C"] },
   { name := "C", superclasses := ["B"] }]

/-- A class below a cycle is not part of it. -/
theorem order_decides_sample :
    order Sample.loop [Name.rootObject] = .error (.cyclicInheritance ["B", "C", "B"]) ∧
    ["B", "C", "B"].head? = ["B", "C", "B"].getLast? ∧ ["B", "C", "B"].dropLast.Nodup := by
  have herror : order Sample.loop [Name.rootObject]
      = .error (.cyclicInheritance ["B", "C", "B"]) := by
    decide +kernel
  obtain ⟨-, -, -, hends, hdistinct⟩ := (order_decides _ _).2 _ herror
  exact ⟨herror, hends, hdistinct⟩

end ClassForge.Class

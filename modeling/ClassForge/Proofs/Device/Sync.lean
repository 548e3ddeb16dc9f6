import ClassForge.Proofs.Device.Copy
import ClassForge.Proofs.Device.Merge

/-!
# What bringing state back restores

A visit merges one host record and goes on to the objects that both records refer to, but not to
one whose state is being brought back already. So an object may be visited many times, and on the
way a pair of records is met again and again. Main statement: where each object is met with one
device record only, every pair that can be reached is merged, once and for all, and nothing else
changes.

That each pair is reached takes a path that does not come back to where it started: the visits cut
a path off only where it closes a circle, and a circle can be left out.
-/

namespace ClassForge.Device

open Relation

namespace Heap

/-! ## Changes to the host -/

/-- A host record becomes another by one merge with a record on the device. -/
def MergesTo (h : Heap) (r w : Record) : Prop :=
  ∃ remote ∈ h.device, r.IsMerge h.plan? remote w

/-- Between `h` and `h'` host records were merged with device records, each any number of times, and
nothing else has changed. -/
structure Synced (h h' : Heap) : Prop where
  plans : h'.plans = h.plans
  device : h'.device = h.device
  handles : h'.handles = h.handles
  length : h'.host.length = h.host.length
  host : ∀ (j : Nat) (r : Record), h.host[j]? = some r →
    ∃ w, h'.host[j]? = some w ∧ ReflTransGen h.MergesTo r w

theorem MergesTo.cls {h : Heap} {r w : Record} (hw : ReflTransGen h.MergesTo r w) :
    w.cls = r.cls := by
  induction hw with
  | refl => rfl
  | tail _ hlast ih =>
    obtain ⟨_, _, hmerge⟩ := hlast
    rw [hmerge.cls, ih]

namespace Synced

variable {h h₁ h₂ : Heap}

theorem refl (h : Heap) : h.Synced h :=
  ⟨rfl, rfl, rfl, rfl, fun _ r hr => ⟨r, hr, .refl⟩⟩

theorem plan?_eq (hs : h.Synced h₁) : h₁.plan? = h.plan? := by
  funext cls
  rw [plan?, plan?, hs.plans]

theorem mergesTo_eq (hs : h.Synced h₁) : h₁.MergesTo = h.MergesTo := by
  funext r w
  rw [MergesTo, MergesTo, hs.device, hs.plan?_eq]

theorem trans (hs₁ : h.Synced h₁) (hs₂ : h₁.Synced h₂) : h.Synced h₂ where
  plans := hs₂.plans.trans hs₁.plans
  device := hs₂.device.trans hs₁.device
  handles := hs₂.handles.trans hs₁.handles
  length := hs₂.length.trans hs₁.length
  host j r hr := by
    obtain ⟨w, hw, hfirst⟩ := hs₁.host j r hr
    obtain ⟨x, hx, hthen⟩ := hs₂.host j w hw
    rw [hs₁.mergesTo_eq] at hthen
    exact ⟨x, hx, hfirst.trans hthen⟩

/-- One merge. -/
theorem set {j : Nat} {r w : Record} (hr : h.host[j]? = some r) (hw : h.MergesTo r w) :
    h.Synced { h with host := h.host.set j w } where
  plans := rfl
  device := rfl
  handles := rfl
  length := List.length_set
  host i x hx := by
    by_cases hij : j = i
    · subst hij
      rw [hr] at hx
      obtain rfl := Option.some.inj hx
      have hlt := (List.getElem?_eq_some_iff.1 hr).1
      exact ⟨w, List.getElem?_set_self hlt, .single hw⟩
    · exact ⟨x, (List.getElem?_set_ne hij).trans hx, .refl⟩

end Synced

section Visits

variable {visit : Visit → Heap → Except HeapError Unit × Heap}

theorem synced_visitAll (hvisit : ∀ v, ∀ h : Heap, h.Synced (visit v h).2) (vs : List Visit) :
    ∀ h : Heap, h.Synced (visitAll visit vs h).2 := by
  induction vs with
  | nil => exact Synced.refl
  | cons v vs ih =>
    intro h
    have hfirst := hvisit v h
    unfold visitAll
    split
    next h₁ hv =>
      rw [hv] at hfirst
      exact hfirst.trans (ih h₁)
    next e h₁ hv =>
      rw [hv] at hfirst
      exact hfirst

theorem synced_syncFresh (hvisit : ∀ v, ∀ h : Heap, h.Synced (visit v h).2) (v : Visit) (h : Heap) :
    h.Synced (h.syncFresh visit v).2 := by
  unfold syncFresh
  split
  next => exact .refl h
  next => exact .refl h
  next r remote hr hremote =>
    split
    next => exact .refl h
    next w visits hw =>
      obtain ⟨hmerge, -⟩ := Record.merge_ok hw
      have hset := Synced.set hr ⟨remote, List.mem_of_getElem? hremote, hmerge⟩
      exact hset.trans (synced_visitAll hvisit visits _)

/-- Whatever comes of a visit, only host records change, and only by whole merges. -/
theorem synced_syncNested (bound : Nat) :
    ∀ (above : List Nat) (v : Visit) (h : Heap), h.Synced (syncNested bound above v h).2 := by
  induction bound with
  | zero =>
    intro above v h
    unfold syncNested
    split <;> exact .refl h
  | succ bound ih =>
    intro above v h
    unfold syncNested
    split
    · exact .refl h
    · exact synced_syncFresh (ih (v.1 :: above)) v h

end Visits

/-! ## Pairs that are met -/

/-- A host object and a device record refer to another pair of them at the same place. -/
def Joins (h : Heap) (v u : Visit) : Prop :=
  ∃ r remote, h.host[v.1]? = some r ∧ h.device[v.2]? = some remote ∧ u ∈ r.pairs h.plan? remote

theorem joins_iff {h : Heap} {v u : Visit} {r remote : Record} (hr : h.host[v.1]? = some r)
    (hremote : h.device[v.2]? = some remote) : h.Joins v u ↔ u ∈ r.pairs h.plan? remote := by
  constructor
  · rintro ⟨r', remote', hr', hremote', hu⟩
    obtain rfl := Option.some.inj (hr.symm.trans hr')
    obtain rfl := Option.some.inj (hremote.symm.trans hremote')
    exact hu
  · exact fun hu => ⟨r, remote, hr, hremote, hu⟩

/-- Between `h` and `h'` the pairs `done` were merged, and no other host record has changed. -/
structure Restored (h : Heap) (done : Set Visit) (h' : Heap) : Prop extends h.Synced h' where
  merged : ∀ v ∈ done, ∃ r remote w, h.host[v.1]? = some r ∧ h.device[v.2]? = some remote ∧
    h'.host[v.1]? = some w ∧ r.IsMerge h.plan? remote w
  kept : ∀ j, (∀ v ∈ done, v.1 ≠ j) → h'.host[j]? = h.host[j]?

namespace Restored

variable {h h₁ : Heap} {done : Set Visit} {v : Visit}

theorem refl (h : Heap) : h.Restored ∅ h where
  toSynced := .refl h
  merged _ hv := hv.elim
  kept _ _ := rfl

/-- Whether a pair was merged before or not, its host record becomes the merge of what it was in the
beginning, and leads to the pairs that it led to in the beginning. -/
theorem merge_ok (hs : h.Restored done h₁) (hone : ∀ u ∈ done, u.1 = v.1 → u = v)
    {r₁ remote w : Record} {visits : List Visit} (hr₁ : h₁.host[v.1]? = some r₁)
    (hremote : h.device[v.2]? = some remote) (hw : r₁.merge h₁ remote = .ok (w, visits)) :
    ∃ r, h.host[v.1]? = some r ∧ r.IsMerge h.plan? remote w ∧
      visits = r.pairs h.plan? remote := by
  obtain ⟨hmerge, hvisits⟩ := Record.merge_ok hw
  rw [hs.plan?_eq] at hmerge hvisits
  by_cases hin : v ∈ done
  · obtain ⟨r, remote', w', hr, hremote', hw', hmerge'⟩ := hs.merged v hin
    obtain rfl := Option.some.inj (hremote.symm.trans hremote')
    obtain rfl := Option.some.inj (hr₁.symm.trans hw')
    obtain rfl := hmerge'.again hmerge
    exact ⟨r, hr, hmerge', hvisits.trans hmerge'.pairs_eq⟩
  · have hold : h₁.host[v.1]? = h.host[v.1]? :=
      hs.kept v.1 fun u hu heq => hin (hone u hu heq ▸ hu)
    exact ⟨r₁, hold ▸ hr₁, hmerge, hvisits⟩

/-- The pair of a record that was merged joins the pairs that were merged. -/
theorem insert (hs : h.Restored done h₁) (hone : ∀ u ∈ done, u.1 = v.1 → u = v)
    {r₁ remote w : Record} {visits : List Visit} (hr₁ : h₁.host[v.1]? = some r₁)
    (hremote : h.device[v.2]? = some remote) (hw : r₁.merge h₁ remote = .ok (w, visits)) :
    h.Restored (insert v done) { h₁ with host := h₁.host.set v.1 w } := by
  -- no pair that is done has this record, so it is still the one of the start
  obtain ⟨r, hr, hmerge, -⟩ := hs.merge_ok hone hr₁ hremote hw
  have hto : h₁.MergesTo r₁ w :=
    ⟨remote, List.mem_of_getElem? (hs.device ▸ hremote), (Record.merge_ok hw).1⟩
  have hlt := (List.getElem?_eq_some_iff.1 hr₁).1
  refine { toSynced := hs.toSynced.trans (.set hr₁ hto), merged := ?_, kept := ?_ }
  · intro u hu
    -- the pair that is new, or one whose record is another
    by_cases hself : u.1 = v.1
    · obtain rfl : u = v := hu.elim id fun hold => hone u hold hself
      exact ⟨r, remote, w, hr, hremote, List.getElem?_set_self hlt, hmerge⟩
    · have hold : u ∈ done := hu.resolve_left fun heq => hself (heq ▸ rfl)
      obtain ⟨x, xr, y, hx, hxr, hy, hxy⟩ := hs.merged u hold
      exact ⟨x, xr, y, hx, hxr, (List.getElem?_set_ne (Ne.symm hself)).trans hy, hxy⟩
  · intro j hj
    have hne : v.1 ≠ j := hj v (Set.mem_insert v done)
    rw [List.getElem?_set_ne hne]
    exact hs.kept j fun u hu => hj u (Set.mem_insert_of_mem v hu)

end Restored

/-! ## Paths -/

/-- A pair leads to another, whose object is not on the path `above`. -/
def JoinsOff (h : Heap) (above : List Nat) (v u : Visit) : Prop :=
  h.Joins v u ∧ u.1 ∉ above

/-- A path goes nowhere, or it can be taken without coming back to the object that it starts
from. -/
theorem JoinsOff.cases_head {h : Heap} {above : List Nat} {v u : Visit}
    (hone : ∀ u, ReflTransGen h.Joins v u → u.1 = v.1 → u = v)
    (hpath : ReflTransGen (h.JoinsOff above) v u) :
    u = v ∨ ∃ c, h.Joins v c ∧ c.1 ∉ v.1 :: above ∧
      ReflTransGen (h.JoinsOff (v.1 :: above)) c u := by
  -- by the length of the path; where it comes back to the record of `v` it can start there
  induction hpath with
  | refl => exact .inl rfl
  | @tail b c hto hlast ih =>
    obtain ⟨hjoin, hoff⟩ := hlast
    by_cases hback : c.1 = v.1
    · have hreach : ReflTransGen h.Joins v c :=
        (ReflTransGen.mono (fun _ _ hstep => hstep.1) _ _ hto).tail hjoin
      exact .inl (hone c hreach hback)
    have hc : c.1 ∉ v.1 :: above := by
      intro hmem
      exact (List.mem_cons.1 hmem).elim hback hoff
    rcases ih with rfl | ⟨d, hd, hdoff, hrest⟩
    · exact .inr ⟨c, hjoin, hc, .refl⟩
    · exact .inr ⟨d, hd, hdoff, hrest.tail ⟨hjoin, hc⟩⟩

/-! ## The walk -/

/-- What a visit does where it succeeds, among pairs `all` that are merged in the end: it goes on
from any stage to a later one, and there the pairs in its `goal` are merged. -/
def Restores (h : Heap) (all : Set Visit) (goal : Visit → Set Visit)
    (visit : Visit → Heap → Except HeapError Unit × Heap) : Prop :=
  ∀ ⦃v⦄, v ∈ all → ∀ ⦃done h₁ h₂⦄, done ⊆ all → h.Restored done h₁ →
    visit v h₁ = (.ok (), h₂) →
    ∃ done', done ⊆ done' ∧ done' ⊆ all ∧ goal v ⊆ done' ∧ h.Restored done' h₂

section Walk

variable {h : Heap} {all : Set Visit} {goal : Visit → Set Visit}
  {visit : Visit → Heap → Except HeapError Unit × Heap}

theorem Restores.visitAll (hvisit : h.Restores all goal visit) {vs : List Visit} :
    ∀ {done : Set Visit} {h₁ h₂ : Heap}, (∀ v ∈ vs, v ∈ all) → done ⊆ all → h.Restored done h₁ →
      visitAll visit vs h₁ = (.ok (), h₂) →
      ∃ done', done ⊆ done' ∧ done' ⊆ all ∧ (∀ v ∈ vs, goal v ⊆ done') ∧ h.Restored done' h₂ := by
  induction vs with
  | nil =>
    intro done h₁ h₂ _ hdone hs hrun
    cases hrun
    exact ⟨done, subset_rfl, hdone, fun v hv => absurd hv List.not_mem_nil, hs⟩
  | cons v vs ih =>
    intro done h₁ h₂ hall hdone hs hrun
    unfold Device.visitAll at hrun
    split at hrun
    next h' hv =>
      -- the first visit adds what it reaches, and the others keep that
      obtain ⟨done₁, hle₁, hdone₁, hgoal, hs₁⟩ := hvisit (hall v List.mem_cons_self) hdone hs hv
      obtain ⟨done₂, hle₂, hdone₂, hgoals, hs₂⟩ :=
        ih (fun u hu => hall u (List.mem_cons_of_mem v hu)) hdone₁ hs₁ hrun
      refine ⟨done₂, hle₁.trans hle₂, hdone₂, ?_, hs₂⟩
      intro u hu
      rcases List.mem_cons.1 hu with rfl | hu
      · exact hgoal.trans hle₂
      · exact hgoals u hu
    next => cases hrun

/-- Merging a pair and making the visits that follow from it leaves the pair merged, and the goals
of all pairs that it leads to. -/
theorem Restores.syncFresh (hvisit : h.Restores all goal visit)
    (hclosed : ∀ v ∈ all, ∀ u, h.Joins v u → u ∈ all)
    (hone : ∀ v ∈ all, ∀ u ∈ all, u.1 = v.1 → u = v) {v : Visit} (hv : v ∈ all) {done : Set Visit}
    {h₁ h₂ : Heap} (hdone : done ⊆ all) (hs : h.Restored done h₁)
    (hrun : h₁.syncFresh visit v = (.ok (), h₂)) :
    ∃ done', insert v done ⊆ done' ∧ done' ⊆ all ∧ (∀ u, h.Joins v u → goal u ⊆ done') ∧
      h.Restored done' h₂ := by
  unfold Heap.syncFresh at hrun
  split at hrun
  next => cases hrun
  next => cases hrun
  next r₁ remote hr₁ hremote =>
    split at hrun
    next => cases hrun
    next w visits hw =>
      rw [hs.device] at hremote
      have hself : ∀ u ∈ done, u.1 = v.1 → u = v := fun u hu => hone v hv u (hdone hu)
      obtain ⟨r, hr, -, rfl⟩ := hs.merge_ok hself hr₁ hremote hw
      -- the visits are those of the record as it was at the start
      have hjoins : ∀ u, u ∈ r.pairs h.plan? remote ↔ h.Joins v u :=
        fun u => (joins_iff hr hremote).symm
      obtain ⟨done', hle, hdone', hgoals, hs'⟩ := hvisit.visitAll
        (fun u hu => hclosed v hv u ((hjoins u).1 hu)) (Set.insert_subset hv hdone)
        (hs.insert hself hr₁ hremote hw) hrun
      exact ⟨done', hle, hdone', fun u hu => hgoals u ((hjoins u).2 hu), hs'⟩

/-- A visit merges all pairs that can be reached from its own without passing an object on the path
above. -/
theorem restores_syncNested (hclosed : ∀ v ∈ all, ∀ u, h.Joins v u → u ∈ all)
    (hone : ∀ v ∈ all, ∀ u ∈ all, u.1 = v.1 → u = v) (bound : Nat) :
    ∀ above : List Nat, h.Restores all
      (fun v => {u | v.1 ∉ above ∧ ReflTransGen (h.JoinsOff above) v u})
      (syncNested bound above) := by
  induction bound with
  | zero =>
    intro above v _ done h₁ h₂ hdone hs hrun
    unfold syncNested at hrun
    split at hrun
    next habove =>
      cases hrun
      exact ⟨done, subset_rfl, hdone, fun u hu => absurd habove hu.1, hs⟩
    next => cases hrun
  | succ bound ih =>
    intro above v hv done h₁ h₂ hdone hs hrun
    unfold syncNested at hrun
    split at hrun
    next habove =>
      cases hrun
      exact ⟨done, subset_rfl, hdone, fun u hu => absurd habove hu.1, hs⟩
    next =>
      obtain ⟨done', hle, hdone', hgoals, hs'⟩ :=
        (ih (v.1 :: above)).syncFresh hclosed hone hv hdone hs hrun
      refine ⟨done', (Set.subset_insert v done).trans hle, hdone', ?_, hs'⟩
      rintro u ⟨-, hpath⟩
      have hsame : ∀ u, ReflTransGen h.Joins v u → u.1 = v.1 → u = v := by
        intro u hu heq
        have hall : u ∈ all := by
          clear heq
          induction hu with
          | refl => exact hv
          | tail _ hlast ih => exact hclosed _ ih _ hlast
        exact hone v hv u hall heq
      -- the circles through `v` are left out, so the rest of the path is not cut off below `v`
      rcases JoinsOff.cases_head hsame hpath with rfl | ⟨c, hc, hoff, hrest⟩
      · exact hle (Set.mem_insert u done)
      · exact hgoals c hc ⟨hoff, hrest⟩

end Walk

/-- Bringing an object's state back, where no object is met with two device records: each object
that is met has its old record merged with the device record it is met with, and no other host
object has changed. -/
theorem sync_restores_reachable {h h' : Heap} {i d : Nat} (hsync : h.sync i d = (.ok (), h'))
    (hone : ∀ j e e', ReflTransGen h.Joins (i, d) (j, e) → ReflTransGen h.Joins (i, d) (j, e') →
      e = e') :
    (∀ j e, ReflTransGen h.Joins (i, d) (j, e) →
      ∃ r remote w, h.host[j]? = some r ∧ h.device[e]? = some remote ∧ h'.host[j]? = some w ∧
        r.IsMerge h.plan? remote w) ∧
    ∀ j, (∀ e, ¬ ReflTransGen h.Joins (i, d) (j, e)) → h'.host[j]? = h.host[j]? := by
  -- the pairs that are reached are closed, and no two of them share a host record
  let all : Set Visit := {u | ReflTransGen h.Joins (i, d) u}
  have hclosed : ∀ v ∈ all, ∀ u, h.Joins v u → u ∈ all := fun v hv u hvu => hv.tail hvu
  have hsame : ∀ v ∈ all, ∀ u ∈ all, u.1 = v.1 → u = v := by
    rintro ⟨j, e⟩ hv ⟨j', e'⟩ hu heq
    obtain rfl : j' = j := heq
    rw [hone j' e e' hv hu]
  obtain ⟨done, -, hdone, hgoal, hs⟩ := restores_syncNested hclosed hsame h.host.length []
    .refl (Set.empty_subset all) (Restored.refl h) hsync
  have hoff : h.JoinsOff [] = h.Joins := by
    funext v u
    simp [JoinsOff]
  rw [hoff] at hgoal
  constructor
  · intro j e hje
    exact hs.merged (j, e) (hgoal ⟨List.not_mem_nil, hje⟩)
  · intro j hj
    apply hs.kept j
    rintro v hv rfl
    exact hj v.2 (hdone hv)

/-- Three nodes that refer to each other and a fourth that nothing refers to, with their device
records, whose values have changed. The third is reached from the second by its part, and from the
first. -/
def Sample.changed : Heap :=
  { Sample.ring with
    host := [node 1 (some 1) (some 2), node 2 (some 0) (some 2), node 3 (some 1) none,
      node 4 none none]
    device := [node 10 (some 1) (some 2), node 20 (some 0) (some 2), node 30 (some 1) none,
      node 40 none none] }

theorem sync_restores_reachable_sample : ∃ h', Sample.changed.sync 0 0 = (.ok (), h') ∧
    (∃ w, h'.host[2]? = some w ∧ (Sample.node 3 (some 1) none).IsMerge Sample.changed.plan?
      (Sample.node 30 (some 1) none) w) ∧
    h'.host[3]? = some (Sample.node 4 none none) := by
  -- records and images have the same numbers, and the first three lead to each other alone
  have hpairs : ∀ j ∈ [0, 1, 2], ∀ r ∈ Sample.changed.host[j]?,
      ∀ remote ∈ Sample.changed.device[j]?, ∀ u ∈ r.pairs Sample.changed.plan? remote,
        u.2 = u.1 ∧ u.1 ∈ [0, 1, 2] := by decide
  have hmet : ∀ u, ReflTransGen Sample.changed.Joins (0, 0) u → u.2 = u.1 ∧ u.1 ∈ [0, 1, 2] := by
    intro u hu
    induction hu with
    | refl => decide
    | tail _ hlast ih =>
      obtain ⟨r, remote, hr, hremote, hu⟩ := hlast
      exact hpairs _ ih.2 r hr remote (ih.1 ▸ hremote) _ hu
  obtain ⟨h', hsync⟩ : ∃ h', Sample.changed.sync 0 0 = (.ok (), h') := ⟨_, rfl⟩
  obtain ⟨hmerged, hkept⟩ := sync_restores_reachable hsync
    fun j e e' he he' => (hmet _ he).1.trans (hmet _ he').1.symm
  have hfirst : Sample.changed.Joins (0, 0) (2, 2) := ⟨_, _, rfl, rfl, by decide⟩
  obtain ⟨r, remote, w, hr, hremote, hw, hmerge⟩ := hmerged 2 2 (.single hfirst)
  obtain rfl := Option.some.inj hr
  obtain rfl := Option.some.inj hremote
  refine ⟨h', hsync, ⟨w, hw, hmerge⟩, ?_⟩
  rw [hkept 3 fun e he => absurd (hmet _ he).2 (by simp)]
  rfl

end Heap

end ClassForge.Device

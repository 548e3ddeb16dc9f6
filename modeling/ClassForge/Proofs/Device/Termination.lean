import ClassForge.Proofs.Device.CopyCalls
import ClassForge.Proofs.Device.Frame

/-!
# Calls that come to an end

Main statement: from any heaps and with any objects marked, calls to copy an object or to bring one
back come to an end, to the outcome that they are said to have and to no other. No more of them nest
than there are host objects, plus one, and a copy adds no more records than there are host objects.

Bringing state back ends because a visit marks its object: each call that gets past the marks leaves
fewer objects free for those below it. The mark goes when the call returns, so an object may be
visited any number of times, but never below itself.
-/

namespace ClassForge.Device.Sweep

/-! ## Rules for visits -/

/-- Visits one after the other come to an outcome, where each of them comes to what `calls` has for
it. -/
inductive VisitsRun (calls : Visit → Sweep → Except HeapError Unit × Sweep → Prop) :
    List Visit → Sweep → Except HeapError Unit × Sweep → Prop
  | nil {s : Sweep} : VisitsRun calls [] s (.ok (), s)
  | failed {v : Visit} {vs : List Visit} {s s' : Sweep} {e : HeapError}
    (hv : calls v s (.error e, s')) : VisitsRun calls (v :: vs) s (.error e, s')
  | cons {v : Visit} {vs : List Visit} {s s₁ : Sweep} {o : Except HeapError Unit × Sweep}
    (hv : calls v s (.ok (), s₁)) (hvs : VisitsRun calls vs s₁ o) : VisitsRun calls (v :: vs) s o

/-- Bringing back an object that is marked for it comes to an outcome. -/
inductive ObjectRun (calls : Visit → Sweep → Except HeapError Unit × Sweep → Prop) (v : Visit)
    (s : Sweep) : Except HeapError Unit × Sweep → Prop
  | noHost (hr : s.heap.host[v.1]? = none) :
    ObjectRun calls v s (.error (.danglingReference .host v.1), s)
  | noDevice {r : Record} (hr : s.heap.host[v.1]? = some r)
    (hremote : s.heap.device[v.2]? = none) :
    ObjectRun calls v s (.error (.danglingReference .device v.2), s)
  | refused {r remote : Record} {e : HeapError} (hr : s.heap.host[v.1]? = some r)
    (hremote : s.heap.device[v.2]? = some remote) (hmerge : r.merge s.heap remote = .error e) :
    ObjectRun calls v s (.error e, s)
  | merged {r remote w : Record} {vs : List Visit} {o : Except HeapError Unit × Sweep}
    (hr : s.heap.host[v.1]? = some r) (hremote : s.heap.device[v.2]? = some remote)
    (hmerge : r.merge s.heap remote = .ok (w, vs))
    (hvs : VisitsRun calls vs { s with heap := { s.heap with host := s.heap.host.set v.1 w } } o) :
    ObjectRun calls v s o

/-- A call to bring an object back comes to an outcome. An object that is marked is left alone. -/
inductive SyncRun (calls : Visit → Sweep → Except HeapError Unit × Sweep → Prop) (v : Visit)
    (s : Sweep) : Except HeapError Unit × Sweep → Prop
  | busy (hv : v.1 ∈ s.busy) : SyncRun calls v s (.ok (), s)
  | free {result : Except HeapError Unit} {s' : Sweep} (hv : v.1 ∉ s.busy)
    (hobject : ObjectRun calls v { s with busy := insert v.1 s.busy } (result, s')) :
    SyncRun calls v s (result, { s' with busy := s'.busy.erase v.1 })

/-- A call to bring an object back comes to an end, and to the given outcome, with no more than
`depth` calls nested, itself among them. -/
def SyncEnds : (depth : Nat) → Visit → Sweep → Except HeapError Unit × Sweep → Prop
  | 0 => fun _ _ _ => False
  | depth + 1 => SyncRun (SyncEnds depth)

/-! ## No second outcome -/

section Unique

variable {calls calls' : Visit → Sweep → Except HeapError Unit × Sweep → Prop} {s : Sweep}
  {o o' : Except HeapError Unit × Sweep}

theorem VisitsRun.unique (hcalls : ∀ v s o o', calls v s o → calls' v s o' → o = o')
    {vs : List Visit} (hrun : VisitsRun calls vs s o) (hrun' : VisitsRun calls' vs s o') :
    o = o' := by
  induction hrun with
  | nil =>
    cases hrun'
    rfl
  | failed hv =>
    cases hrun' with
    | failed hv' => exact hcalls _ _ _ _ hv hv'
    | cons hv' _ => cases hcalls _ _ _ _ hv hv'
  | cons hv _ ih =>
    cases hrun' with
    | failed hv' => cases hcalls _ _ _ _ hv hv'
    | cons hv' hvs' =>
      cases hcalls _ _ _ _ hv hv'
      exact ih hvs'

theorem ObjectRun.unique (hcalls : ∀ v s o o', calls v s o → calls' v s o' → o = o') {v : Visit}
    (hrun : ObjectRun calls v s o) (hrun' : ObjectRun calls' v s o') : o = o' := by
  -- both runs look up the same records and merge them, so they go by the same rule
  cases hrun with
  | noHost hr =>
    cases hrun' with
    | noHost => rfl
    | noDevice hr' | refused hr' | merged hr' => cases hr.symm.trans hr'
  | noDevice hr hremote =>
    cases hrun' with
    | noHost hr' => cases hr.symm.trans hr'
    | noDevice => rfl
    | refused _ hremote' | merged _ hremote' => cases hremote.symm.trans hremote'
  | refused hr hremote hmerge =>
    cases hrun' with
    | noHost hr' => cases hr.symm.trans hr'
    | noDevice _ hremote' => cases hremote.symm.trans hremote'
    | refused hr' hremote' hmerge' =>
      cases hr.symm.trans hr'
      cases hremote.symm.trans hremote'
      cases hmerge.symm.trans hmerge'
      rfl
    | merged hr' hremote' hmerge' =>
      cases hr.symm.trans hr'
      cases hremote.symm.trans hremote'
      cases hmerge.symm.trans hmerge'
  | merged hr hremote hmerge hvs =>
    cases hrun' with
    | noHost hr' => cases hr.symm.trans hr'
    | noDevice _ hremote' => cases hremote.symm.trans hremote'
    | refused hr' hremote' hmerge' =>
      cases hr.symm.trans hr'
      cases hremote.symm.trans hremote'
      cases hmerge.symm.trans hmerge'
    | merged hr' hremote' hmerge' hvs' =>
      cases hr.symm.trans hr'
      cases hremote.symm.trans hremote'
      cases hmerge.symm.trans hmerge'
      exact hvs.unique hcalls hvs'

/-- No two outcomes of a call, even if one takes more depth than the other. -/
theorem SyncEnds.unique {depth depth' : Nat} {v : Visit} (hends : SyncEnds depth v s o)
    (hends' : SyncEnds depth' v s o') : o = o' := by
  -- depths may differ, as long as both are enough
  induction depth generalizing depth' v s o o' with
  | zero => exact hends.elim
  | succ depth ih =>
    cases depth' with
    | zero => exact hends'.elim
    | succ depth' =>
      cases hends with
      | busy hv =>
        cases hends' with
        | busy => rfl
        | free hv' => exact absurd hv hv'
      | free hv hobject =>
        cases hends' with
        | busy hv' => exact absurd hv' hv
        | free _ hobject' =>
          have hbelow : ∀ v s o o', SyncEnds depth v s o → SyncEnds depth' v s o' → o = o' :=
            fun _ _ _ _ hends hends' => ih hends hends'
          cases hobject.unique hbelow hobject'
          rfl

end Unique

/-! ## An outcome -/

section Exists

variable {calls : Visit → Sweep → Except HeapError Unit × Sweep → Prop}
  {visit : Visit → Sweep → Except HeapError Unit × Sweep} {I : Sweep → Prop}

theorem visitsRun (hends : ∀ v s, I s → calls v s (visit v s))
    (hkeeps : ∀ v s, I s → I (visit v s).2) (vs : List Visit) :
    ∀ s, I s → VisitsRun calls vs s (visitAll visit vs s) := by
  induction vs with
  | nil => exact fun _ _ => .nil
  | cons v vs ih =>
    intro s hI
    have hv := hends v s hI
    have hI₁ := hkeeps v s hI
    unfold visitAll
    generalize visit v s = o at hv hI₁ ⊢
    rcases o with ⟨_ | _, s₁⟩
    · exact .failed hv
    · exact .cons hv (ih s₁ hI₁)

theorem objectRun (hends : ∀ v s, I s → calls v s (visit v s))
    (hkeeps : ∀ v s, I s → I (visit v s).2) (s : Sweep) (v : Visit)
    (hI : ∀ r w, s.heap.host[v.1]? = some r →
      I { s with heap := { s.heap with host := s.heap.host.set v.1 w } }) :
    ObjectRun calls v s (syncFresh visit s v) := by
  unfold syncFresh
  split
  next hr => exact .noHost hr
  next r hr hremote => exact .noDevice hr hremote
  next r remote hr hremote =>
    split
    next e hmerge => exact .refused hr hremote hmerge
    next w vs hmerge =>
      exact .merged hr hremote hmerge (visitsRun hends hkeeps vs _ (hI r w hr))

end Exists

/-- The host objects that are not marked. -/
def unmarked (s : Sweep) : Finset Nat :=
  (Finset.range s.heap.host.length).filter (· ∉ s.busy)

theorem card_unmarked_insert_lt {s : Sweep} {i : Nat} {r : Record} (hr : s.heap.host[i]? = some r)
    (hi : i ∉ s.busy) :
    ({ s with busy := insert i s.busy } : Sweep).unmarked.card < s.unmarked.card := by
  have hlt := (List.getElem?_eq_some_iff.1 hr).1
  refine Finset.card_lt_card (Finset.ssubset_iff_of_subset ?_ |>.2 ⟨i, ?_, ?_⟩)
  · intro j hj
    obtain ⟨hrange, hfree⟩ := Finset.mem_filter.1 hj
    exact Finset.mem_filter.2 ⟨hrange, fun hbusy => hfree (Finset.mem_insert_of_mem hbusy)⟩
  · exact Finset.mem_filter.2 ⟨Finset.mem_range.2 hlt, hi⟩
  · exact fun hmem => (Finset.mem_filter.1 hmem).2 (Finset.mem_insert_self i _)

/-- Whatever comes of a visit, the same objects are marked after it. -/
theorem unmarked_syncNested (bound : Nat) (v : Visit) (s : Sweep) :
    (syncNested bound v s).2.unmarked = s.unmarked := by
  have hrun := follows_syncNested bound s.busy.toList s.busy (fun _ => Finset.mem_toList.symm) v
    s.heap
  have hlength := (Heap.synced_syncNested bound s.busy.toList v s.heap).length
  rw [hrun, unmarked, unmarked, hlength]

/-- A visit comes to an end with no more calls nested than there are objects not marked, and one
more. -/
theorem syncEnds_syncNested (bound : Nat) : ∀ v s, s.unmarked.card ≤ bound →
    SyncEnds (bound + 1) v s (syncNested bound v s) := by
  induction bound with
  | zero =>
    intro v s hle
    unfold syncNested
    split
    next hv => exact .busy hv
    next hv =>
      -- an unmarked host record would count, and there are none left
      have hr : s.heap.host[v.1]? = none := by
        cases hr : s.heap.host[v.1]? with
        | none => rfl
        | some r => exact absurd (card_unmarked_insert_lt hr hv) (by omega)
      have hrun : SyncRun (SyncEnds 0) v s _ := .free hv (.noHost hr)
      rwa [Finset.erase_insert hv] at hrun
  | succ bound ih =>
    intro v s hle
    unfold syncNested
    split
    next hv => exact .busy hv
    next hv =>
      refine .free hv (objectRun ih (fun v s hle => (unmarked_syncNested bound v s).symm ▸ hle) _ v
        fun r w hr => ?_)
      -- one more record is marked below this visit
      have hless : ({ s with busy := insert v.1 s.busy } : Sweep).unmarked.card < s.unmarked.card :=
        card_unmarked_insert_lt hr hv
      simp only [unmarked, List.length_set] at hless hle ⊢
      omega

/-- Copying an object and bringing one back come to an end from any state, to the outcome that they
are said to have and to no other, with no more calls nested than there are host objects, plus one.
A copy adds no more records than there are host objects: each is the handle of one of them. -/
theorem calls_end (s : Sweep) (i d : Nat) (force : Bool) :
    s.heap.CopyEnds (s.heap.host.length + 1) i force (s.heap.copy i force) ∧
    (∀ depth o, s.heap.CopyEnds depth i force o → o = s.heap.copy i force) ∧
    (s.heap.copy i force).2.device.length ≤ s.heap.device.length + s.heap.host.length ∧
    (∀ k, s.heap.device.length ≤ k → k < (s.heap.copy i force).2.device.length →
      ∃ j < s.heap.host.length, (s.heap.copy i force).2.handle? j = some k) ∧
    SyncEnds (s.heap.host.length + 1) (i, d) s (s.sync i d) ∧
    (∀ depth o, SyncEnds depth (i, d) s o → o = s.sync i d) ∧
    (s.busy = ∅ → ((s.sync i d).1, (s.sync i d).2.heap) = s.heap.sync i d) := by
  have hadds := Heap.addsHandles_copy s.heap i force
  have hsync : SyncEnds (s.heap.host.length + 1) (i, d) s (s.sync i d) := by
    refine syncEnds_syncNested _ _ _ ?_
    exact (Finset.card_filter_le _ _).trans (Finset.card_range _).le
  obtain ⟨-, -, hfree⟩ := synced_sync s i d
  exact ⟨s.heap.copyEnds_copy i force, fun _ _ => Heap.CopyEnds.eq_copy, hadds.length_le,
    hadds.owner, hsync, fun _ _ hends => hends.unique hsync, hfree⟩

/-- On a host of four objects, a ring of two nodes is copied anew, with a third that both refer to.
The first is brought back while the third is marked, past a reference that leads nowhere. -/
theorem calls_end_sample :
    (∃ o, Sample.severed.CopyEnds 5 0 true o ∧ o.2.device.length ≤ 6) ∧
      ∃ s', SyncEnds 5 (0, 1) ⟨Sample.severed, {2}⟩ (.ok (), s') := by
  obtain ⟨s', hrun⟩ : ∃ s', (⟨Sample.severed, {2}⟩ : Sweep).sync 0 1 = (.ok (), s') := ⟨_, rfl⟩
  have hdepth : Sample.severed.host.length + 1 = 5 := rfl
  obtain ⟨hcopy, -, hlength, -, hsync, -⟩ := calls_end ⟨Sample.severed, {2}⟩ 0 1 true
  rw [hrun] at hsync
  exact ⟨⟨_, hdepth ▸ hcopy, hlength⟩, s', hdepth ▸ hsync⟩

end ClassForge.Device.Sweep

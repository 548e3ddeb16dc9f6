import ClassForge.Proofs.Device.Copy
import ClassForge.Proofs.Device.Sync
import Mathlib.Data.List.Perm.Subperm

/-!
# From the host to the device and back

An object that is copied to the device and brought back unchanged is what it was. Main statement:
this holds for whole graphs of objects, circles included, where nothing had a handle before, so that
no record on the device is older than the copy. Merging an object's record with its image changes
nothing, and leads from the objects that it refers to to their images.
-/

namespace ClassForge.Device

open Relation

/-! ## Merging with an image -/

section Merge

variable {h : Heap} {handle? : Nat → Option Nat}

mutual

/-- A value stays as it is when it is merged with its image, and the visits go from the objects that
it refers to to their handles. -/
theorem Value.IsImage.merge_eq (cls : String) {f : Field} {v w : Value}
    (himage : Value.IsImage h.plan? handle? f.kind v w) :
    ∃ visits, v.merge h cls f w = .ok (v, visits) ∧
      ∀ u ∈ visits, u.1 ∈ v.references h.plan? f.kind ∧ handle? u.1 = some u.2 := by
  generalize hk : f.kind = kind at himage
  -- what the image keeps of a value is what a merge takes from it
  cases himage with
  | @plain pointer =>
    rw [Value.merge_plain hk, ite_self]
    exact ⟨[], rfl, fun u hu => absurd hu List.not_mem_nil⟩
  | null =>
    simp only [Value.merge, hk]
    exact ⟨[], rfl, fun u hu => absurd hu List.not_mem_nil⟩
  | @object _ n k hn =>
    simp only [Value.merge, hk]
    refine ⟨[(n, k)], rfl, fun u hu => ?_⟩
    obtain rfl := List.mem_singleton.1 hu
    exact ⟨by simp [Value.references], hn⟩
  | @embedded _ inner onDevice plan values images hplan himages =>
    obtain ⟨hvalues, hws⟩ := himages.length_eq
    obtain ⟨visits, hmerge, hvisits⟩ := himages.mergeAll_eq inner
    refine ⟨visits, ?_, ?_⟩
    · simp only [Value.merge, hk, hplan, checkCount_eq_ok hvalues, checkCount_eq_ok hws, hmerge]
      rfl
    · simpa only [Value.references, hplan] using hvisits

theorem Value.AreImages.mergeAll_eq (cls : String) {fs : List Field} {vs ws : List Value}
    (himages : Value.AreImages h.plan? handle? fs vs ws) :
    ∃ visits, Value.mergeAll h cls fs vs ws = .ok (vs, visits) ∧
      ∀ u ∈ visits, u.1 ∈ Value.allReferences h.plan? fs vs ∧ handle? u.1 = some u.2 := by
  cases himages with
  | nil =>
    exact ⟨[], by simp [Value.mergeAll], fun u hu => absurd hu List.not_mem_nil⟩
  | @cons f fs v w vs ws hhead htail =>
    obtain ⟨first, hfirst, hvisits⟩ := hhead.merge_eq cls
    obtain ⟨more, hmore, hvisits'⟩ := htail.mergeAll_eq cls
    have htail' : ∀ u ∈ more, u.1 ∈ Value.allReferences h.plan? (f :: fs) (v :: vs) ∧
        handle? u.1 = some u.2 := by
      intro u hu
      obtain ⟨hmem, hhandle⟩ := hvisits' u hu
      rw [Value.allReferences]
      exact ⟨List.mem_append_right _ hmem, hhandle⟩
    rw [Value.mergeAll_cons, hfirst, hmore]
    -- a field that is not copied back keeps its value and visits nothing
    by_cases hf : f.syncBack = true
    · rw [if_pos hf]
      refine ⟨first ++ more, rfl, fun u hu => ?_⟩
      rcases List.mem_append.1 hu with hu | hu
      · obtain ⟨hmem, hhandle⟩ := hvisits u hu
        rw [Value.allReferences]
        exact ⟨List.mem_append_left _ hmem, hhandle⟩
      · exact htail' u hu
    · rw [if_neg hf]
      exact ⟨more, rfl, htail'⟩

end

/-- A record stays as it is when it is merged with its image. -/
theorem Record.IsImage.merge_eq {r w : Record} (himage : r.IsImage h.plan? handle? w) :
    ∃ visits, r.merge h w = .ok (r, visits) ∧
      ∀ u ∈ visits, u.1 ∈ r.references h.plan? ∧ handle? u.1 = some u.2 := by
  obtain ⟨plan, hplan, himages⟩ := himage.values
  obtain ⟨hvalues, hws⟩ := himages.length_eq
  obtain ⟨visits, hmerge, hvisits⟩ := himages.mergeAll_eq r.cls
  refine ⟨visits, ?_, ?_⟩
  · simp only [Record.merge, hplan, checkCount_eq_ok hvalues, checkCount_eq_ok hws, hmerge]
    rfl
  · simpa only [Record.references, hplan] using hvisits

end Merge

/-! ## Objects that are their images -/

namespace Heap

variable {h h' : Heap} {copied : Set Nat}

/-- The records of some host objects are on the device, as their handles, and so are those of all
objects that they refer to. -/
structure Mirrors (h : Heap) (copied : Set Nat) : Prop where
  mirrored : ∀ j ∈ copied, h.Mirrored j
  closed : ∀ j ∈ copied, ∀ r, h.host[j]? = some r → ∀ n ∈ r.references h.plan?, n ∈ copied

theorem visitAll_eq {visit : Visit → Heap → Except HeapError Unit × Heap} {vs : List Visit}
    (hvisit : ∀ v ∈ vs, visit v h = (.ok (), h)) : visitAll visit vs h = (.ok (), h) := by
  induction vs with
  | nil => rfl
  | cons v vs ih =>
    rw [visitAll, hvisit v List.mem_cons_self]
    exact ih fun u hu => hvisit u (List.mem_cons_of_mem v hu)

/-- A path of objects that are there, none of them twice, is no longer than there are objects. -/
theorem length_lt_of_nodup {above : List Nat} {i n : Nat} (hnodup : above.Nodup)
    (hlt : ∀ a ∈ above, a < n) (hi : i < n) (hout : i ∉ above) : above.length < n := by
  have hsub : i :: above ⊆ List.range n := by
    intro a ha
    rcases List.mem_cons.1 ha with rfl | ha
    · exact List.mem_range.2 hi
    · exact List.mem_range.2 (hlt a ha)
  have hcons : (i :: above).Nodup := List.nodup_cons.2 ⟨hout, hnodup⟩
  have hlength := (hcons.subperm hsub).length_le
  rwa [List.length_cons, List.length_range] at hlength

/-- A visit from an object to its handle changes nothing, below any path that leaves room for it. -/
theorem Mirrors.syncNested_eq (hm : h.Mirrors copied) (bound : Nat) :
    ∀ {above : List Nat} {v : Visit}, above.Nodup → (∀ a ∈ above, a < h.host.length) →
      h.host.length ≤ bound + above.length → v.1 ∈ copied → h.handle? v.1 = some v.2 →
      syncNested bound above v h = (.ok (), h) := by
  induction bound with
  | zero =>
    intro above v hnodup hlt hbound hv hhandle
    obtain ⟨r, _, _, hr, -⟩ := hm.mirrored v.1 hv
    have hi := (List.getElem?_eq_some_iff.1 hr).1
    -- all host records are in progress by now, so this one is
    have habove : v.1 ∈ above := by
      by_contra hout
      have := length_lt_of_nodup hnodup hlt hi hout
      omega
    rw [syncNested, if_pos habove]
  | succ bound ih =>
    intro above v hnodup hlt hbound hv hhandle
    rw [syncNested]
    split
    next => rfl
    next hout =>
      obtain ⟨r, k, w, hr, hk, hw, himage⟩ := hm.mirrored v.1 hv
      obtain rfl := Option.some.inj (hhandle.symm.trans hk)
      obtain ⟨visits, hmerge, hvisits⟩ := himage.merge_eq
      -- the merge gives back the record that stands there
      have hset : h.host.set v.1 r = h.host := by
        obtain ⟨hi, rfl⟩ := List.getElem?_eq_some_iff.1 hr
        exact List.set_getElem_self hi
      simp only [syncFresh, hr, hw, hmerge, hset]
      apply visitAll_eq
      intro u hu
      obtain ⟨href, hhandle'⟩ := hvisits u hu
      apply ih (List.nodup_cons.2 ⟨hout, hnodup⟩) ?_ ?_ (hm.closed v.1 hv r hr u.1 href) hhandle'
      · intro a ha
        rcases List.mem_cons.1 ha with rfl | ha
        · exact (List.getElem?_eq_some_iff.1 hr).1
        · exact hlt a ha
      · rw [List.length_cons]
        omega

/-- One object refers to another. -/
def Refers (h : Heap) (a b : Nat) : Prop :=
  ∃ r, h.host[a]? = some r ∧ b ∈ r.references h.plan?

/-- An object that has no handle, and leads to none that has one, is copied with all that it
leads to. -/
theorem mirrors_of_copy {i k : Nat} {force : Bool}
    (hnone : ∀ j, ReflTransGen h.Refers i j → h.handle? j = none)
    (hcopy : h.copy i force = (.ok k, h')) :
    h'.host = h.host ∧ h'.handle? i = some k ∧ h'.Mirrors {j | ReflTransGen h.Refers i j} := by
  have hfresh : h.copyFresh (copyNested h.host.length) i = (.ok k, h') := by
    simpa only [copy, hnone i .refl] using hcopy
  obtain ⟨-, hi, hc⟩ := copyFresh_ok (traverses_copyNested _) hfresh
  -- without handles on the way every reference is followed
  have hsame : {j | ReflTransGen h.Leads i j} = {j | ReflTransGen h.Refers i j} := by
    ext j
    constructor
    · exact fun hj => ReflTransGen.mono (fun _ _ hstep => hstep.1) _ _ hj
    · intro hj
      induction hj with
      | refl => exact .refl
      | tail hto hlast ih => exact ih.tail ⟨hlast, hnone _ (hto.tail hlast)⟩
  rw [hsame] at hc
  refine ⟨hc.host, hi, hc.mirrored, ?_⟩
  intro j hj r hr n hn
  rw [hc.host] at hr
  rw [hc.plan?_eq] at hn
  exact hj.tail ⟨r, hr, hn⟩

/-- Where neither an object nor any that it leads to has a handle, copying the object and bringing
its state back succeeds if the copy does, and leaves the host as it was. -/
theorem sync_copy_eq {i k : Nat} {force : Bool}
    (hnone : ∀ j, ReflTransGen h.Refers i j → h.handle? j = none)
    (hcopy : h.copy i force = (.ok k, h')) :
    h'.sync i k = (.ok (), h') ∧ h'.host = h.host := by
  obtain ⟨hhost, hi, hm⟩ := mirrors_of_copy hnone hcopy
  refine ⟨?_, hhost⟩
  exact hm.syncNested_eq h'.host.length List.nodup_nil (fun a ha => absurd ha List.not_mem_nil)
    (Nat.le_refl _) .refl hi

/-- A ring of two nodes, whose parts refer to a third, before anything is copied. -/
def Sample.uncopied : Heap :=
  { Sample.ring with
    host := [node 1 (some 1) (some 2), node 2 (some 0) (some 2), node 3 none none,
      node 4 none none]
    device := [node 40 none none]
    handles := [(3, 0)] }

theorem sync_copy_eq_sample : ∃ h', Sample.uncopied.copy 0 true = (.ok 1, h') ∧
    h'.sync 0 1 = (.ok (), h') ∧ h'.host = Sample.uncopied.host := by
  have hclosed : ∀ j ∈ [0, 1, 2], ∀ r ∈ Sample.uncopied.host[j]?,
      ∀ n ∈ r.references Sample.uncopied.plan?, n ∈ [0, 1, 2] := by decide
  have hnone : ∀ j, ReflTransGen Sample.uncopied.Refers 0 j →
      Sample.uncopied.handle? j = none := by
    intro j hj
    have hmem : j ∈ [0, 1, 2] := by
      induction hj with
      | refl => decide
      | tail _ hlast ih =>
        obtain ⟨r, hr, hn⟩ := hlast
        exact hclosed _ ih r hr _ hn
    have hfree : ∀ j ∈ [0, 1, 2], Sample.uncopied.handle? j = none := by decide
    exact hfree j hmem
  obtain ⟨h', hcopy⟩ : ∃ h', Sample.uncopied.copy 0 true = (.ok 1, h') := ⟨_, rfl⟩
  exact ⟨h', hcopy, sync_copy_eq hnone hcopy⟩

end Heap

end ClassForge.Device

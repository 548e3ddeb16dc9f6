import ClassForge.Proofs.Device.Copy
import ClassForge.Proofs.Device.Sync
import ClassForge.Proofs.Device.Writes

/-!
# Copies that are broken off

The device record of an object is its handle before it is filled in. Where a copy fails on the way,
the records of all objects whose copies were under way stay as they were set aside, and stay the
handles of their objects. Main statement: whatever was done before, an unforced copy returns a
finished record or one that a copy that failed has left behind; and after each copy that fails, the
object it was called for has such a record, which the next unforced copy returns.
-/

namespace ClassForge.Device

namespace Heap

variable {h h₁ h₂ : Heap} {i j k : Nat}

/-! ## Finished and unfinished records -/

/-- A device record is a whole copy of a host object: of its class, with the device's class pointer
and as many values as the plan has fields. -/
def Finished (h : Heap) (i k : Nat) : Prop :=
  ∃ r w plan, h.host[i]? = some r ∧ h.device[k]? = some w ∧ h.plan? r.cls = some plan ∧
    w.cls = r.cls ∧ w.onDevice = true ∧ w.values.length = plan.fields.length

/-- A device record has been set aside for a host object, and nothing has been filled in. -/
def SetAside (h : Heap) (i k : Nat) : Prop :=
  ∃ r, h.host[i]? = some r ∧ h.device[k]? = some { cls := r.cls, values := [] }

theorem SetAside.not_finished (haside : h.SetAside i k) : ¬ h.Finished i k := by
  obtain ⟨_, -, hk⟩ := haside
  rintro ⟨_, w, _, -, hw, -, -, hdevice, -⟩
  obtain rfl := Option.some.inj (hk.symm.trans hw)
  cases hdevice

theorem Mirrored.finished (hm : h.Mirrored j) : ∃ k, h.handle? j = some k ∧ h.Finished j k := by
  obtain ⟨r, k, w, hr, hk, hw, himage⟩ := hm
  obtain ⟨plan, hplan, himages⟩ := himage.values
  exact ⟨k, hk, r, w, plan, hr, hw, hplan, himage.cls, himage.onDevice, himages.length_eq.2.symm⟩

/-- No host object has changed its class, and no device record has changed. -/
structure Preserves (h h' : Heap) : Prop where
  plans : h'.plan? = h.plan?
  cls : ∀ (j : Nat) (r : Record), h.host[j]? = some r →
    ∃ w, h'.host[j]? = some w ∧ w.cls = r.cls
  device : h.device <+: h'.device

namespace Preserves

theorem of_host_eq (hplans : h₁.plans = h.plans) (hhost : h₁.host = h.host)
    (hdevice : h.device <+: h₁.device) : h.Preserves h₁ where
  plans := by
    funext cls
    rw [plan?, plan?, hplans]
  cls j r hr := ⟨r, hhost ▸ hr, rfl⟩
  device := hdevice

theorem trans (hp₁ : h.Preserves h₁) (hp₂ : h₁.Preserves h₂) : h.Preserves h₂ where
  plans := hp₂.plans.trans hp₁.plans
  cls j r hr := by
    obtain ⟨w, hw, hcls⟩ := hp₁.cls j r hr
    obtain ⟨x, hx, hcls'⟩ := hp₂.cls j w hw
    exact ⟨x, hx, hcls'.trans hcls⟩
  device := hp₁.device.trans hp₂.device

/-- A finished record stays one. -/
theorem finished (hp : h.Preserves h₁) (hf : h.Finished j k) : h₁.Finished j k := by
  obtain ⟨r, w, plan, hr, hw, hplan, hcls, hrest⟩ := hf
  obtain ⟨r', hr', hsame⟩ := hp.cls j r hr
  refine ⟨r', w, plan, hr', getElem?_of_prefix hp.device hw, ?_, hcls.trans hsame.symm, hrest⟩
  rw [hp.plans, hsame, hplan]

/-- A record that is not finished stays so. -/
theorem setAside (hp : h.Preserves h₁) (haside : h.SetAside j k) : h₁.SetAside j k := by
  obtain ⟨r, hr, hk⟩ := haside
  obtain ⟨r', hr', hsame⟩ := hp.cls j r hr
  exact ⟨r', hr', hsame ▸ getElem?_of_prefix hp.device hk⟩

end Preserves

/-! ## What a copy leaves behind, whether it fails or not -/

/-- Between `h` and `h'` handles were given out, for new device records that are finished or still
as they were set aside. No handle that was there has changed. -/
structure Extends (h h' : Heap) : Prop extends h.Preserves h' where
  kept : ∀ j k, h.handle? j = some k → h'.handle? j = some k
  handle : ∀ j k, h'.handle? j = some k → h.handle? j = some k ∨
    h.device.length ≤ k ∧ (h'.Finished j k ∨ h'.SetAside j k)

theorem preserves_reserve (h : Heap) (i : Nat) (r : Record) : h.Preserves (h.reserve i r) :=
  .of_host_eq rfl rfl (List.prefix_append _ _)

theorem setAside_reserve {r : Record} (hr : h.host[i]? = some r) :
    (h.reserve i r).SetAside i h.device.length :=
  ⟨r, hr, by simp [reserve]⟩

namespace Extends

theorem refl (h : Heap) : h.Extends h :=
  ⟨.of_host_eq rfl rfl (List.prefix_refl _), fun _ _ hk => hk, fun _ _ hk => .inl hk⟩

theorem trans (he₁ : h.Extends h₁) (he₂ : h₁.Extends h₂) : h.Extends h₂ where
  toPreserves := he₁.toPreserves.trans he₂.toPreserves
  kept j k hk := he₂.kept j k (he₁.kept j k hk)
  handle j k hk := by
    rcases he₂.handle j k hk with hold | ⟨hle, hnew⟩
    · rcases he₁.handle j k hold with hold | ⟨hle, hfinished | haside⟩
      · exact .inl hold
      · exact .inr ⟨hle, .inl (he₂.finished hfinished)⟩
      · exact .inr ⟨hle, .inr (he₂.setAside haside)⟩
    · exact .inr ⟨he₁.device.length_le.trans hle, hnew⟩

/-- A record is set aside for an object that has no handle. -/
theorem reserve {r : Record} (hr : h.host[i]? = some r) (hi : h.handle? i = none) :
    h.Extends (h.reserve i r) where
  toPreserves := preserves_reserve h i r
  kept j k hk := by
    -- no handle is replaced, as the object had none
    have hne : j ≠ i := by
      rintro rfl
      rw [hi] at hk
      cases hk
    rwa [reserve_handle?_of_ne r hne]
  handle j k hk := by
    by_cases hne : j = i
    · subst hne
      rw [reserve_handle?_self] at hk
      obtain rfl := Option.some.inj hk
      exact .inr ⟨Nat.le_refl _, .inr (setAside_reserve hr)⟩
    · exact .inl (reserve_handle?_of_ne r hne ▸ hk)

/-- The first record that was set aside is filled in with an image. -/
theorem fill {r w : Record} (he : h.Extends h₁)
    (hk : h₁.device[h.device.length]? = some { cls := r.cls, values := [] })
    (hw : r.IsImage h.plan? h₁.handle? w) :
    h.Extends { h₁ with device := h₁.device.set h.device.length w } where
  plans := he.plans
  cls := he.cls
  device := by
    obtain ⟨behind, hbehind⟩ := he.device
    rw [← hbehind, List.set_append_right _ _ (Nat.le_refl _)]
    exact List.prefix_append _ _
  kept := he.kept
  handle j n hn := by
    rcases he.handle j n hn with hold | ⟨hle, hnew⟩
    · exact .inl hold
    refine .inr ⟨hle, ?_⟩
    -- the record that is filled was set aside and is finished now; the others stay as they are
    by_cases hself : h.device.length = n
    · subst hself
      rcases hnew with ⟨_, w', _, -, hw', -, -, hdevice, -⟩ | ⟨r', hr', hk'⟩
      · obtain rfl := Option.some.inj (hk.symm.trans hw')
        cases hdevice
      · have hcls : r'.cls = r.cls := (Record.mk.inj (Option.some.inj (hk'.symm.trans hk))).1
        obtain ⟨plan, hplan, himages⟩ := hw.values
        rw [← hcls, ← he.plans] at hplan
        have hlt := (List.getElem?_eq_some_iff.1 hk).1
        exact .inl ⟨r', w, plan, hr', List.getElem?_set_self hlt, hplan, hw.cls.trans hcls.symm,
          hw.onDevice, himages.length_eq.2.symm⟩
    · rcases hnew with ⟨r', w', plan, hr', hw', hrest⟩ | ⟨r', hr', hk'⟩
      · exact .inl ⟨r', w', plan, hr', (List.getElem?_set_ne hself).trans hw', hrest⟩
      · exact .inr ⟨r', hr', (List.getElem?_set_ne hself).trans hk'⟩

end Extends

/-! ## Copies -/

section Values

variable {copy : Nat → Heap → Outcome Nat}

/-- The image of a record is made by copies, and no other change. -/
theorem extends_recordImage (hcopy : ∀ n, ∀ h : Heap, h.Extends (copy n h).2) (r : Record)
    (h : Heap) : h.Extends (r.image copy h).2 :=
  Record.image_related Extends.refl Extends.trans hcopy r h

theorem extends_copyFresh (hcopy : ∀ n, ∀ h : Heap, h.Extends (copy n h).2)
    (htraverses : Traverses copy) (hi : h.handle? i = none) :
    h.Extends (h.copyFresh copy i).2 := by
  unfold copyFresh
  split
  next => exact .refl h
  next r hr =>
    -- the handle is published first, then the image is computed and only then put in place
    have himage := extends_recordImage hcopy r (h.reserve i r)
    split
    next heq =>
      rw [heq] at himage
      exact (Extends.reserve hr hi).trans himage
    next w h₁ heq =>
      rw [heq] at himage
      obtain ⟨_, -, hw⟩ := Record.image_ok htraverses heq
      have hk : (h.reserve i r).device[h.device.length]? = some { cls := r.cls, values := [] } := by
        simp [Heap.reserve]
      have hk' := getElem?_of_prefix himage.device hk
      exact ((Extends.reserve hr hi).trans himage).fill hk' hw

theorem extends_copyNested (bound : Nat) : ∀ n, ∀ h : Heap, h.Extends (copyNested bound n h).2 := by
  induction bound with
  | zero =>
    intro n h
    unfold copyNested
    split <;> exact .refl h
  | succ bound ih =>
    intro n h
    unfold copyNested
    split
    next => exact .refl h
    next hnone => exact extends_copyFresh ih (traverses_copyNested bound) hnone

/-- A copy that fails has set a record aside for its object, if there is one, and whatever else it
did came after that. -/
theorem copyFresh_error (hcopy : ∀ n, ∀ h : Heap, h.Extends (copy n h).2) {e : HeapError}
    (hfail : h.copyFresh copy i = (.error e, h₁)) :
    h.host[i]? = none ∧ h₁ = h ∨ ∃ r, h.host[i]? = some r ∧ (h.reserve i r).Extends h₁ := by
  unfold copyFresh at hfail
  split at hfail
  next hnone =>
    cases hfail
    exact .inl ⟨hnone, rfl⟩
  next r hr =>
    have himage := extends_recordImage hcopy r (h.reserve i r)
    split at hfail
    next heq =>
      cases hfail
      rw [heq] at himage
      exact .inr ⟨r, hr, himage⟩
    next => cases hfail

end Values

/-! ## Whatever was done before -/

/-- Heaps that come about by placing objects on the host, copying them and bringing their state
back. `lost` are the device records that copies which failed had set aside. -/
inductive Reached (plans : List Plan) : Set Nat → Heap → Prop
  | start : Reached plans ∅ (ofPlans plans)
  | allocate {lost : Set Nat} {h : Heap} (hr : Reached plans lost h) (r : Record) :
    Reached plans lost (h.allocate r).2
  | copied {lost : Set Nat} {h h' : Heap} {i k : Nat} {force : Bool} (hr : Reached plans lost h)
    (hcopy : h.copy i force = (.ok k, h')) : Reached plans lost h'
  | failed {lost : Set Nat} {h h' : Heap} {i : Nat} {force : Bool} {e : HeapError}
    (hr : Reached plans lost h) (hcopy : h.copy i force = (.error e, h')) :
    Reached plans (lost ∪ Set.Ico h.device.length h'.device.length) h'
  | synced {lost : Set Nat} {h h' : Heap} {i d : Nat} {result : Except HeapError Unit}
    (hr : Reached plans lost h) (hsync : h.sync i d = (result, h')) : Reached plans lost h'

/-- Every handle leads to a finished record, or to one that was lost. -/
def Accounted (lost : Set Nat) (h : Heap) : Prop :=
  ∀ j k, h.handle? j = some k → h.Finished j k ∨ k ∈ lost ∧ h.SetAside j k

/-- A copy that succeeds returns the handle that was there, or finishes all records that it adds. -/
theorem copy_ok {force : Bool} (hcopy : h.copy i force = (.ok k, h₁)) :
    force = false ∧ h.handle? i = some k ∧ h₁ = h ∨
      h₁.Finished i k ∧ h.Preserves h₁ ∧
        ∀ j n, h₁.handle? j = some n → h.handle? j = some n ∨ h₁.Finished j n := by
  rcases copy_cases h i force with hnew | ⟨rfl, n, hn, hold⟩
  · rw [hnew] at hcopy
    obtain ⟨-, hi, hc⟩ := copyFresh_ok (traverses_copyNested _) hcopy
    -- whatever the copy reaches is mirrored by the time it succeeds
    have hfinished : ∀ j ∈ {j | Relation.ReflTransGen h.Leads i j}, ∀ n, h₁.handle? j = some n →
        h₁.Finished j n := by
      intro j hj n hn
      obtain ⟨n', hn', hf⟩ := (hc.mirrored j hj).finished
      rwa [Option.some.inj (hn.symm.trans hn')]
    refine .inr ⟨hfinished i .refl k hi, .of_host_eq hc.plans hc.host hc.device, ?_⟩
    intro j n hn
    by_cases hj : j ∈ {j | Relation.ReflTransGen h.Leads i j}
    · exact .inr (hfinished j hj n hn)
    · exact .inl (hc.kept j hj ▸ hn)
  · rw [hold] at hcopy
    cases hcopy
    exact .inl ⟨rfl, hn, rfl⟩

/-- A copy that fails has found no object, or has set a record aside for it before all else. -/
theorem copy_error {force : Bool} {e : HeapError} (hcopy : h.copy i force = (.error e, h₁)) :
    h.host[i]? = none ∧ h₁ = h ∨ ∃ r, h.host[i]? = some r ∧ (h.reserve i r).Extends h₁ := by
  rcases copy_cases h i force with hnew | ⟨-, n, -, hold⟩
  · exact copyFresh_error (extends_copyNested _) (hnew ▸ hcopy)
  · rw [hold] at hcopy
    cases hcopy

namespace Accounted

variable {lost : Set Nat}

/-- Where no object gains a handle but for a finished record, nothing more is lost. -/
theorem of_preserves (ha : h.Accounted lost) (hp : h.Preserves h₁)
    (hhandle : ∀ j n, h₁.handle? j = some n → h.handle? j = some n ∨ h₁.Finished j n) :
    h₁.Accounted lost := by
  intro j n hn
  rcases hhandle j n hn with hold | hfinished
  · rcases ha j n hold with hfinished | ⟨hlost, haside⟩
    · exact .inl (hp.finished hfinished)
    · exact .inr ⟨hlost, hp.setAside haside⟩
  · exact .inl hfinished

/-- A copy that fails loses no more than the records that it set aside. -/
theorem of_copy_error {force : Bool} {e : HeapError} (ha : h.Accounted lost)
    (hcopy : h.copy i force = (.error e, h₁)) :
    h₁.Accounted (lost ∪ Set.Ico h.device.length h₁.device.length) := by
  intro j n hn
  rcases copy_error hcopy with ⟨-, rfl⟩ | ⟨r, hr, he⟩
  · exact (ha j n hn).imp id fun haside => ⟨.inl haside.1, haside.2⟩
  -- records that this copy allocated are the ones it may leave behind
  have hnew : h.device.length ≤ n → h₁.SetAside j n →
      n ∈ lost ∪ Set.Ico h.device.length h₁.device.length := by
    rintro hle ⟨_, -, hk⟩
    exact .inr ⟨hle, (List.getElem?_eq_some_iff.1 hk).1⟩
  -- a handle is the one of the object itself, an older one, or one that a nested copy published
  rcases he.handle j n hn with hold | ⟨hle, hfinished | haside⟩
  · by_cases hself : j = i
    · subst hself
      rw [reserve_handle?_self] at hold
      obtain rfl := Option.some.inj hold
      have haside := he.setAside (setAside_reserve hr)
      exact .inr ⟨hnew (Nat.le_refl _) haside, haside⟩
    · rw [reserve_handle?_of_ne r hself] at hold
      have hp := (preserves_reserve h i r).trans he.toPreserves
      rcases ha j n hold with hfinished | ⟨hlost, haside⟩
      · exact .inl (hp.finished hfinished)
      · exact .inr ⟨.inl hlost, hp.setAside haside⟩
  · exact .inl hfinished
  · have hlength : h.device.length ≤ (h.reserve i r).device.length :=
      (preserves_reserve h i r).device.length_le
    exact .inr ⟨hnew (hlength.trans hle) haside, haside⟩

end Accounted

theorem Synced.preserves (hs : h.Synced h₁) : h.Preserves h₁ where
  plans := hs.plan?_eq
  cls j r hr := by
    obtain ⟨w, hw, hmerges⟩ := hs.host j r hr
    exact ⟨w, hw, MergesTo.cls hmerges⟩
  device := hs.device ▸ List.prefix_refl _

theorem Reached.accounted {plans : List Plan} {lost : Set Nat} (hr : Reached plans lost h) :
    h.Accounted lost := by
  -- failed copies add to what is lost; no other step publishes a handle of an unfinished record
  induction hr with
  | start =>
    intro j n hn
    simp [ofPlans, handle?] at hn
  | @allocate lost h _ r ih =>
    apply ih.of_preserves
    · exact ⟨rfl, fun j w hw => ⟨w, getElem?_of_prefix (List.prefix_append _ _) hw, rfl⟩,
        List.prefix_refl _⟩
    · exact fun _ _ hn => .inl hn
  | copied _ hcopy ih =>
    rcases copy_ok hcopy with ⟨-, -, rfl⟩ | ⟨-, hp, hhandle⟩
    · exact ih
    · exact ih.of_preserves hp hhandle
  | failed _ hcopy ih => exact ih.of_copy_error hcopy
  | @synced lost h h' i d result _ hsync ih =>
    have hs : h.Synced h' := by
      have hs := synced_syncNested h.host.length [] (i, d) h
      rwa [← sync, hsync] at hs
    apply ih.of_preserves hs.preserves
    intro j n hn
    rw [handle?, hs.handles] at hn
    exact .inl hn

/-- Whatever was done before, a copy that succeeds returns a finished record, unless it is unforced
and returns the record that a copy which failed had set aside. Each copy that fails leaves such a
record behind for its object, if there is one: the next unforced copy of the object succeeds and
returns a record that is not finished. -/
theorem copy_finished_or_lost {plans : List Plan} {lost : Set Nat} (hr : Reached plans lost h)
    (i : Nat) (force : Bool) :
    (∀ k h', h.copy i force = (.ok k, h') →
      h'.Finished i k ∨ force = false ∧ k ∈ lost ∧ h'.SetAside i k) ∧
    (∀ e h', h.copy i force = (.error e, h') → i < h.host.length →
      ∃ k, h'.copy i false = (.ok k, h') ∧ h'.SetAside i k ∧ ¬ h'.Finished i k) := by
  constructor
  · intro k h' hcopy
    rcases copy_ok hcopy with ⟨hforce, hk, rfl⟩ | ⟨hfinished, -⟩
    · exact (hr.accounted i k hk).imp id fun haside => ⟨hforce, haside⟩
    · exact .inl hfinished
  · intro e h' hcopy hi
    rcases copy_error hcopy with ⟨hnone, -⟩ | ⟨r, hr, he⟩
    · exact absurd hi (Nat.not_lt.2 (List.getElem?_eq_none_iff.1 hnone))
    · have hk := he.kept i h.device.length (reserve_handle?_self h i r)
      have haside := he.setAside (setAside_reserve hr)
      exact ⟨h.device.length, copy_of_handle? hk, haside, haside.not_finished⟩

/-- A link, which refers to another or to none. -/
def Sample.link (next : Option Nat) : Record where
  cls := "Link"
  values := [.object next]

def Sample.linkPlan : Plan where
  object := "Link"
  fields := [{ name := "next", owner := "Link", kind := .nested "Link", syncBack := true }]

/-- A link to an object that is not there yet. -/
def Sample.openLink : Heap :=
  ((ofPlans [linkPlan]).allocate (link (some 1))).2

/-- The same link after it could not be copied, and the object it refers to. -/
def Sample.closedLink : Heap :=
  ((openLink.copy 0 false).2.allocate (link none)).2

theorem Sample.reached_openLink : Reached [linkPlan] ∅ openLink :=
  .allocate .start _

theorem Sample.reached_closedLink : ∃ lost, Reached [linkPlan] lost closedLink := by
  have hfails : openLink.copy 0 false =
      (.error (.danglingReference .host 1), (openLink.copy 0 false).2) := rfl
  exact ⟨_, .allocate (.failed reached_openLink hfails) _⟩

theorem copy_finished_or_lost_sample :
    (∃ e h', Sample.openLink.copy 0 false = (.error e, h') ∧
      ∃ k, h'.copy 0 false = (.ok k, h') ∧ ¬ h'.Finished 0 k) ∧
    ∃ k h', Sample.closedLink.copy 0 true = (.ok k, h') ∧ h'.Finished 0 k := by
  constructor
  · have hfails := (copy_finished_or_lost Sample.reached_openLink 0 false).2 _ _ rfl (by decide)
    obtain ⟨k, hcopy, -, hunfinished⟩ := hfails
    exact ⟨_, _, rfl, k, hcopy, hunfinished⟩
  · obtain ⟨_, hreached⟩ := Sample.reached_closedLink
    have hcopied := (copy_finished_or_lost hreached 0 true).1 _ _ rfl
    exact ⟨_, _, rfl, hcopied.resolve_right fun hold => Bool.noConfusion hold.1⟩

/-- A link that could not be copied counts as copied from then on, also when there is nothing in the
way of copying it any more. -/
theorem failed_copy_returned : ∃ lost h', Reached [Sample.linkPlan] lost Sample.closedLink ∧
    Sample.closedLink.copy 0 false = (.ok 0, h') ∧ ¬ h'.Finished 0 0 := by
  obtain ⟨lost, hreached⟩ := Sample.reached_closedLink
  exact ⟨lost, Sample.closedLink, hreached, rfl,
    SetAside.not_finished ⟨Sample.link (some 1), rfl, rfl⟩⟩

end Heap

end ClassForge.Device

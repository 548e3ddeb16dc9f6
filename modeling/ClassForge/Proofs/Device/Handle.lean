import ClassForge.Proofs.Device.Interrupted

/-!
# Handles

A device record that is set aside is a new one, and where it takes the place of an object's handle
nothing else is done to the record before it. Main statement: whatever was done before, different
objects have different handles, and only a forced copy of an object changes the handle that it has.
The handle that such a copy returns is none that was returned before.
-/

namespace ClassForge.Device

namespace Heap

variable {h h' : Heap} {i k : Nat}

/-! ## Where handles lead -/

/-- Every handle leads from a host object to a device record, and no two handles lead to one. -/
structure Sound (h : Heap) : Prop where
  host : ∀ {j k : Nat}, h.handle? j = some k → j < h.host.length
  device : ∀ {j k : Nat}, h.handle? j = some k → k < h.device.length
  inj : ∀ {i j k : Nat}, h.handle? i = some k → h.handle? j = some k → i = j

namespace Sound

/-- Soundness is about handles and how many records there are, not about what is in the records. -/
theorem of_eq (hs : h.Sound) (hhandles : h'.handles = h.handles)
    (hhost : h.host.length ≤ h'.host.length) (hdevice : h.device.length ≤ h'.device.length) :
    h'.Sound := by
  have hsame : h'.handle? = h.handle? := by
    funext j
    rw [handle?, handle?, hhandles]
  constructor <;> rw [hsame]
  · exact fun hj => (hs.host hj).trans_le hhost
  · exact fun hj => (hs.device hj).trans_le hdevice
  · exact hs.inj

/-- The new record is the handle of no other object, and the handle that it may take the place of is
the handle of none from then on. -/
theorem reserve {r : Record} (hs : h.Sound) (hr : h.host[i]? = some r) : (h.reserve i r).Sound := by
  have hlength : (h.reserve i r).device.length = h.device.length + 1 := by
    simp [Heap.reserve]
  -- a handle is the one just published or one from before
  have hcases : ∀ {j n : Nat}, (h.reserve i r).handle? j = some n →
      j = i ∧ n = h.device.length ∨ j ≠ i ∧ h.handle? j = some n := by
    intro j n hn
    by_cases hj : j = i
    · subst hj
      rw [reserve_handle?_self] at hn
      exact .inl ⟨rfl, (Option.some.inj hn).symm⟩
    · exact .inr ⟨hj, reserve_handle?_of_ne r hj ▸ hn⟩
  constructor
  · intro j n hn
    rcases hcases hn with ⟨rfl, -⟩ | ⟨-, hold⟩
    · exact (List.getElem?_eq_some_iff.1 hr).1
    · exact hs.host hold
  · intro j n hn
    rw [hlength]
    rcases hcases hn with ⟨-, rfl⟩ | ⟨-, hold⟩
    · exact Nat.lt_succ_self _
    · exact Nat.lt_succ_of_lt (hs.device hold)
  · intro j l n hj hl
    rcases hcases hj with ⟨rfl, rfl⟩ | ⟨-, hold⟩ <;> rcases hcases hl with ⟨rfl, hn⟩ | ⟨-, hold'⟩
    · rfl
    · exact absurd (hs.device hold') (Nat.lt_irrefl _)
    · exact absurd (hs.device hold) (hn ▸ Nat.lt_irrefl _)
    · exact hs.inj hold hold'

theorem copy (hs : h.Sound) (i : Nat) (force : Bool) : (h.copy i force).2.Sound :=
  copy_keeps (fun hs hr _ => hs.reserve hr)
    (fun hs => hs.of_eq rfl (Nat.le_refl _) List.length_set.ge) hs (fun _ hr => hs.reserve hr) force

end Sound

/-! ## What a copy leaves as it was -/

/-- Whatever comes of a copy, device records stay as they were, and so do the handles of all objects
but the one that it is called for. -/
theorem copy_stable (h : Heap) (i : Nat) (force : Bool) :
    h.device <+: (h.copy i force).2.device ∧
      ∀ j k, j ≠ i → h.handle? j = some k → (h.copy i force).2.handle? j = some k := by
  cases hcopy : h.copy i force with
  | mk result h' =>
    cases result with
    | ok k =>
      rcases copy_cases h i force with hnew | ⟨-, n, -, hold⟩
      · obtain ⟨-, -, hc⟩ := copyFresh_ok (traverses_copyNested _) (hnew ▸ hcopy)
        refine ⟨hc.device, fun j n hj hn => ?_⟩
        -- what has a handle is not reached, except for the object that is copied
        have hout : j ∉ {j | Relation.ReflTransGen h.Leads i j} := by
          intro hpath
          rcases hpath.cases_tail with rfl | ⟨_, -, -, hnone⟩
          · exact hj rfl
          · rw [hn] at hnone
            cases hnone
        rw [hc.kept j hout, hn]
      · rw [hold] at hcopy
        cases hcopy
        exact ⟨List.prefix_refl _, fun _ _ _ hn => hn⟩
    | error e =>
      rcases copy_error hcopy with ⟨-, rfl⟩ | ⟨r, -, he⟩
      · exact ⟨List.prefix_refl _, fun _ _ _ hn => hn⟩
      · refine ⟨(preserves_reserve h i r).device.trans he.device, fun j n hj hn => ?_⟩
        exact he.kept j n ((reserve_handle?_of_ne r hj).trans hn)

/-- A copy that succeeds returns the object's handle. -/
theorem handle?_of_copy_ok {force : Bool} (hcopy : h.copy i force = (.ok k, h')) :
    h'.handle? i = some k := by
  rcases copy_cases h i force with hnew | ⟨-, n, hn, hold⟩
  · exact (copyFresh_ok (traverses_copyNested _) (hnew ▸ hcopy)).2.1
  · rw [hold] at hcopy
    cases hcopy
    exact hn

/-- The handle that a forced copy returns is a record that was not there before. -/
theorem eq_length_of_forced_copy_ok (hcopy : h.copy i true = (.ok k, h')) :
    k = h.device.length := by
  rcases copy_cases h i true with hnew | ⟨hforce, -⟩
  · exact (copyFresh_ok (traverses_copyNested _) (hnew ▸ hcopy)).1
  · cases hforce

/-! ## Histories -/

/-- What can be done to the heaps. -/
inductive Action where
  | allocate (r : Record)
  | copy (index : Nat) (force : Bool)
  | sync (index device : Nat)
  /-- Writes in place to a record on one of the heaps, which is `r` from then on. -/
  | write (side : Side) (index : Nat) (r : Record)

/-- The heaps after an action, whatever came of it. -/
def Action.perform : Action → Heap → Heap
  | .allocate r, h => (h.allocate r).2
  | .copy index force, h => (h.copy index force).2
  | .sync index device, h => (h.sync index device).2
  | .write side index r, h => h.withRecords side ((h.records side).set index r)

/-- The handle that an action returns: that of a copy which succeeds. -/
def Action.returned? : Action → Heap → Option Nat
  | .copy index force, h => (h.copy index force).1.toOption
  | _, _ => none

/-- Heaps that come about from empty ones by actions of all kinds, with the handles that were
returned on the way. -/
inductive History (plans : List Plan) : List Nat → Heap → Prop
  | start : History plans [] (ofPlans plans)
  | act {returned : List Nat} {h : Heap} (hh : History plans returned h) (a : Action) :
    History plans ((a.returned? h).toList ++ returned) (a.perform h)

theorem Sound.perform (hs : h.Sound) (a : Action) : (a.perform h).Sound := by
  cases a with
  | allocate r =>
    exact hs.of_eq rfl (by simp [Action.perform, Heap.allocate]) (Nat.le_refl _)
  | copy index force => exact hs.copy index force
  | sync index device =>
    have hsync : h.Synced (h.sync index device).2 := synced_syncNested _ _ _ _
    exact hs.of_eq hsync.handles hsync.length.ge (hsync.device ▸ Nat.le_refl _)
  | write side index r =>
    cases side <;>
      exact hs.of_eq rfl (by simp [Action.perform, records, withRecords])
        (by simp [Action.perform, records, withRecords])

/-- No action takes a device record away, and all but a forced copy leave an object's handle as it
is. -/
theorem Action.stable (a : Action) (h : Heap) :
    h.device.length ≤ (a.perform h).device.length ∧
      ∀ j k, h.handle? j = some k → (a.perform h).handle? j = some k ∨ a = .copy j true := by
  cases a with
  | allocate r => exact ⟨Nat.le_refl _, fun _ _ hk => .inl hk⟩
  | copy index force =>
    obtain ⟨hdevice, hkept⟩ := copy_stable h index force
    refine ⟨hdevice.length_le, fun j k hk => ?_⟩
    -- only a forced copy of the same object gives it another handle
    by_cases hj : j = index
    · subst hj
      cases force with
      | false => exact .inl (by rw [Action.perform, copy_of_handle? hk]; exact hk)
      | true => exact .inr rfl
    · exact .inl (hkept j k hj hk)
  | sync index device =>
    have hsync : h.Synced (h.sync index device).2 := synced_syncNested _ _ _ _
    refine ⟨hsync.device ▸ Nat.le_refl _, fun j k hk => .inl ?_⟩
    rwa [Action.perform, handle?, hsync.handles]
  | write side index r =>
    cases side <;>
      exact ⟨by simp [Action.perform, records, withRecords], fun _ _ hk => .inl hk⟩

/-- The handle that an action returns is that of an object after it. -/
theorem Action.exists_handle?_of_returned? {a : Action} (hk : a.returned? h = some k) :
    ∃ j, (a.perform h).handle? j = some k := by
  cases a with
  | allocate | sync | write => cases hk
  | copy index force =>
    refine ⟨index, ?_⟩
    cases hcopy : h.copy index force with
    | mk result h' =>
      simp only [Action.returned?, hcopy] at hk
      cases result with
      | error e => cases hk
      | ok n =>
        obtain rfl : n = k := Option.some.inj hk
        simp only [Action.perform, hcopy, handle?_of_copy_ok hcopy]

namespace History

variable {plans : List Plan} {returned : List Nat}

/-- A write to a field, also inside objects held by value, is a write to the record. -/
theorem of_write? {side : Side} {index : Nat} {path : List Nat} {new : Value}
    (hh : History plans returned h) (hw : h.write? side index path new = some h') :
    History plans returned h' := by
  obtain ⟨r, -, hw⟩ := Option.bind_eq_some_iff.1 hw
  obtain ⟨values, -, hw⟩ := Option.bind_eq_some_iff.1 hw
  obtain rfl := Option.some.inj hw
  exact hh.act (.write side index { r with values })

theorem sound (hh : History plans returned h) : h.Sound := by
  induction hh with
  | start => constructor <;> simp [ofPlans, handle?]
  | act _ a ih => exact ih.perform a

/-- All handles that were ever returned are device records. -/
theorem returned_lt (hh : History plans returned h) : ∀ k ∈ returned, k < h.device.length := by
  induction hh with
  | start => simp
  | @act returned h hh a ih =>
    intro k hk
    rcases List.mem_append.1 hk with hnew | hold
    · obtain ⟨j, hj⟩ := Action.exists_handle?_of_returned? (Option.mem_toList.1 hnew)
      exact (hh.sound.perform a).device hj
    · exact (ih k hold).trans_le (a.stable h).1

end History

/-- Whatever was done before, handles lead from host objects to device records, and different
objects have different ones. No action takes a device record away, and none but a forced copy of an
object changes the handle that it has. A forced copy that succeeds returns the object's new handle,
which was never returned before, and leaves the record that it takes the place of as it was; an
unforced copy of an object with a handle returns that and changes nothing. -/
theorem handles_stable {plans : List Plan} {returned : List Nat} (hh : History plans returned h) :
    (∀ j k, h.handle? j = some k → j < h.host.length ∧ k < h.device.length) ∧
    (∀ i j k, h.handle? i = some k → h.handle? j = some k → i = j) ∧
    (∀ a : Action, h.device.length ≤ (a.perform h).device.length ∧
      ∀ j k, h.handle? j = some k → (a.perform h).handle? j = some k ∨ a = .copy j true) ∧
    (∀ i k h', h.copy i true = (.ok k, h') → h'.handle? i = some k ∧ k ∉ returned ∧
      ∀ old, h.handle? i = some old → old ≠ k ∧ h'.device[old]? = h.device[old]?) ∧
    ∀ i k, h.handle? i = some k → h.copy i false = (.ok k, h) := by
  have hs := hh.sound
  refine ⟨fun j k hk => ⟨hs.host hk, hs.device hk⟩, fun _ _ _ => hs.inj, fun a => a.stable h, ?_,
    fun _ _ => copy_of_handle?⟩
  intro i k h' hcopy
  -- a forced copy goes to a record that did not exist before
  have hk : k = h.device.length := eq_length_of_forced_copy_ok hcopy
  refine ⟨handle?_of_copy_ok hcopy, fun hmem => ?_, fun old hold => ?_⟩
  · exact absurd (hh.returned_lt k hmem) (hk ▸ Nat.lt_irrefl _)
  · have hlt : old < h.device.length := hs.device hold
    have hdevice := (copy_stable h i true).1
    rw [hcopy] at hdevice
    have hrecord : h.device[old]? = some h.device[old] := List.getElem?_eq_getElem hlt
    refine ⟨hk ▸ hlt.ne, ?_⟩
    rw [hrecord]
    exact getElem?_of_prefix hdevice hrecord

/-- A link that was copied while it referred to nothing. -/
def Sample.copiedLink : Heap :=
  (((ofPlans [linkPlan]).allocate (link none)).2.copy 0 false).2

/-- The same link when it refers to itself. -/
def Sample.rewired : Heap :=
  { copiedLink with host := [link (some 0)] }

theorem handles_stable_sample : ∃ h', History [Sample.linkPlan] [0] Sample.rewired ∧
    Sample.rewired.copy 0 false = (.ok 0, Sample.rewired) ∧
    Sample.rewired.copy 0 true = (.ok 1, h') ∧ h'.handle? 0 = some 1 ∧
    h'.device[0]? = Sample.rewired.device[0]? := by
  have hcopied : History [Sample.linkPlan] [0] Sample.copiedLink :=
    .act (.act .start (.allocate (Sample.link none))) (.copy 0 false)
  have hwrite : Sample.copiedLink.write? .host 0 [0] (.object (some 0)) = some Sample.rewired := rfl
  have hh : History [Sample.linkPlan] [0] Sample.rewired := hcopied.of_write? hwrite
  obtain ⟨-, -, -, hforced, hunforced⟩ := handles_stable hh
  obtain ⟨hhandle, -, hold⟩ := hforced 0 1 _ rfl
  exact ⟨_, hh, hunforced 0 0 rfl, rfl, hhandle, (hold 0 rfl).2⟩

end Heap

end ClassForge.Device

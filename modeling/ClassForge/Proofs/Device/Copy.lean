import ClassForge.Proofs.Device.Traversal
import Mathlib.Algebra.Order.Interval.Set.SuccPred
import Mathlib.Data.Nat.SuccPred

/-!
# What a copy copies

A copied object has its handle before its record is filled in, and the objects that it refers to are
copied in between. Main statement: the copied objects are those reached through objects without a
handle, each has a device record of its own, and that record is its image.

That nothing unreachable is copied comes from the walk. That nothing reachable is left out does not:
the objects that a record with an image refers to have handles, so the copied objects are closed
under references to objects without one.
-/

namespace ClassForge.Device

open Relation

namespace Heap

variable {copy : Nat → Heap → Outcome Nat} {h h' : Heap} {i k : Nat}

theorem reserve_handle?_self (h : Heap) (i : Nat) (r : Record) :
    (h.reserve i r).handle? i = some h.device.length := by
  simp [reserve, handle?]

theorem reserve_handle?_of_ne {j : Nat} (r : Record) (hj : j ≠ i) :
    (h.reserve i r).handle? j = h.handle? j := by
  have hbeq : (j == i) = false := beq_false_of_ne hj
  simp [reserve, handle?, List.lookup_cons, hbeq]

theorem leads_of_reserve {r : Record} {a b : Nat} (hab : (h.reserve i r).Leads a b) :
    h.Leads a b := by
  obtain ⟨href, hnone⟩ := hab
  have hb : b ≠ i := by
    rintro rfl
    rw [reserve_handle?_self] at hnone
    cases hnone
  exact ⟨href, reserve_handle?_of_ne r hb ▸ hnone⟩

/-- The objects that were copied are closed under references to objects without a handle. -/
theorem Copied.closed {new : Set Nat} (hc : h.Copied new h') {a b : Nat} (ha : a ∈ new)
    (hab : h.Leads a b) : b ∈ new := by
  obtain ⟨⟨r, hr, hb⟩, hnone⟩ := hab
  obtain ⟨r', k, w, hr', -, -, himage⟩ := hc.mirrored a ha
  rw [hc.host, hr] at hr'
  obtain rfl := Option.some.inj hr'
  rw [hc.plan?_eq] at himage
  have hsome := himage.isSome_of_mem_references hb
  by_contra hout
  rw [hc.kept b hout, hnone] at hsome
  cases hsome

/-- Once the record set aside for an object is filled in, the object is copied together with what
was traversed for it. -/
theorem Traversed.fill {r w : Record} {roots : List Nat} {new : Set Nat} {h₁ : Heap}
    (ht : (h.reserve i r).Traversed roots new h₁) (hr : h.host[i]? = some r)
    (himage : r.IsImage h.plan? h₁.handle? w) :
    h.Copied (insert i new) { h₁ with device := h₁.device.set h.device.length w } := by
  have hhandle : h₁.handle? i = some h.device.length :=
    ht.handle?_eq_some (reserve_handle?_self h i r)
  -- the record of `i` stands between the old device records and those of `new`
  obtain ⟨behind, hdevice⟩ :
      ∃ behind, h₁.device = h.device ++ { cls := r.cls, values := [] } :: behind := by
    obtain ⟨behind, hsplit⟩ := ht.device
    exact ⟨behind, by rw [← hsplit, reserve, List.append_assoc, List.singleton_append]⟩
  have hset : h₁.device.set h.device.length w = h.device ++ w :: behind := by
    rw [hdevice, List.set_append_right _ _ (Nat.le_refl _), Nat.sub_self, List.set_cons_zero]
  have hlength : (h.reserve i r).device.length = h.device.length + 1 := by
    simp [reserve]
  exact {
    plans := ht.plans
    host := ht.host
    device := hset ▸ List.prefix_append _ _
    kept := fun j hj => by
      obtain ⟨hne, hout⟩ := not_or.1 hj
      exact (ht.kept j hout).trans (reserve_handle?_of_ne r hne)
    bijOn := by
      have hlt : h.device.length < h₁.device.length := by
        rw [hdevice, List.length_append, List.length_cons]
        omega
      have hbij := ht.bijOn
      rw [hlength] at hbij
      rw [List.length_set, ← Set.insert_Ico_add_one_left_eq_Ico hlt, Set.image_insert_eq, ← hhandle]
      refine hbij.insert ?_
      rw [hhandle]
      rintro ⟨l, hl, heq⟩
      obtain rfl := Option.some.inj heq
      exact absurd hl.1 (Nat.not_succ_le_self _)
    mirrored := by
      have hplan : h₁.plan? = h.plan? := ht.plan?_eq
      rintro j (rfl | hj)
      · refine ⟨r, _, w, ht.host.symm ▸ hr, hhandle, ?_, hplan ▸ himage⟩
        rw [hset, List.getElem?_append_right (Nat.le_refl _), Nat.sub_self, List.getElem?_cons_zero]
      · obtain ⟨rj, l, wj, hrj, hl, hwj, hj'⟩ := ht.mirrored j hj
        obtain ⟨l', hl', heq⟩ := ht.bijOn.mapsTo hj
        obtain rfl : l' = l := Option.some.inj (heq.trans hl)
        refine ⟨rj, l', wj, hrj, hl, ?_, hj'⟩
        have hne : h.device.length ≠ l' := by
          have hge := hl'.1
          omega
        rw [List.getElem?_set_ne hne, hwj] }

/-- A new copy of an object copies what is reached from it, and its handle is the first of the new
device records. -/
theorem copyFresh_ok (hcopy : Traverses copy) (hk : h.copyFresh copy i = (.ok k, h')) :
    k = h.device.length ∧ h'.handle? i = some k ∧
      h.Copied {j | ReflTransGen h.Leads i j} h' := by
  unfold copyFresh at hk
  split at hk
  next => cases hk
  next r hr =>
    split at hk
    next => cases hk
    next w h₁ hw =>
      cases hk
      obtain ⟨new, ht, himage⟩ := Record.image_ok hcopy hw
      have hcopied := ht.fill hr himage
      refine ⟨rfl, ht.handle?_eq_some (reserve_handle?_self h i r), ?_⟩
      -- nothing else was copied, and whatever a new image leads to has a handle by then
      have hnew : insert i new = {j | ReflTransGen h.Leads i j} := by
        ext j
        constructor
        · rintro (rfl | hj)
          · exact .refl
          · obtain ⟨b, hb, hnone, hpath⟩ := ht.reached j hj
            refine .head (leads_of_reserve ⟨⟨r, hr, hb⟩, hnone⟩) ?_
            exact ReflTransGen.mono (fun _ _ => leads_of_reserve) _ _ hpath
        · intro hpath
          -- along the path, since what is copied is closed under references without a handle
          induction hpath with
          | refl => exact .inl rfl
          | tail _ hstep ih => exact hcopied.closed ih hstep
      exact hnew ▸ hcopied

/-- So nested copies traverse what they copy, to whatever depth they may go. -/
theorem traverses_copyNested (bound : Nat) : Traverses (copyNested bound) := by
  induction bound with
  | zero =>
    intro n h k h' hk
    simp only [copyNested] at hk
    split at hk
    next hn => cases hk; exact ⟨∅, .refl h _, hn⟩
    next => cases hk
  | succ bound ih =>
    intro n h k h' hk
    simp only [copyNested] at hk
    split at hk
    next hn => cases hk; exact ⟨∅, .refl h _, hn⟩
    next hnone =>
      obtain ⟨-, hn, hcopied⟩ := copyFresh_ok ih hk
      -- the only root is `n` itself
      have hreached : ∀ j ∈ {j | ReflTransGen h.Leads n j},
          ∃ b ∈ [n], h.handle? b = none ∧ ReflTransGen h.Leads b j :=
        fun j hj => ⟨n, List.mem_singleton_self n, hnone, hj⟩
      exact ⟨_, { hcopied with reached := hreached }, hn⟩

/-- The object `i` and the objects that have a handle in `h'` and had none in `h`. -/
def gained (h : Heap) (i : Nat) (h' : Heap) : Set Nat :=
  {j | j = i ∨ h.handle? j = none ∧ (h'.handle? j).isSome}

/-- A copy that goes from an object to all objects reached from it gives those handles and no
others. -/
theorem Copied.gained_eq (hc : h.Copied {j | ReflTransGen h.Leads i j} h') :
    h.gained i h' = {j | ReflTransGen h.Leads i j} := by
  ext j
  constructor
  · rintro (rfl | ⟨hnone, hsome⟩)
    · exact .refl
    · by_contra hout
      rw [hc.kept j hout, hnone] at hsome
      cases hsome
  · intro hj
    -- a step leads only to objects without a handle
    rcases hj.cases_tail with rfl | ⟨_, -, -, hnone⟩
    · exact .inl rfl
    · obtain ⟨k, -, hk⟩ := hc.bijOn.mapsTo hj
      exact .inr ⟨hnone, by rw [← hk, Option.isSome_some]⟩

/-- A new copy of an object leaves the host objects and the device records that were there as they
are. Its handle is the first new device record, and no other object with a handle gets another. The
object and those that gain a handle are the objects reached from it through objects that had none;
each has one of the new device records to itself, which is its image under the handles as they are
in the end. -/
theorem copy_mirrors_reachable {force : Bool} (hnew : h.handle? i = none ∨ force = true)
    (hcopy : h.copy i force = (.ok k, h')) :
    h'.plans = h.plans ∧ h'.host = h.host ∧ h.device <+: h'.device ∧
    k = h.device.length ∧ h'.handle? i = some k ∧
    (∀ j n, j ≠ i → h.handle? j = some n → h'.handle? j = some n) ∧
    h.gained i h' = {j | ReflTransGen h.Leads i j} ∧
    Set.BijOn h'.handle? (h.gained i h') (some '' Set.Ico h.device.length h'.device.length) ∧
    ∀ j ∈ h.gained i h', ∃ r n w, h.host[j]? = some r ∧ h'.handle? j = some n ∧
      h'.device[n]? = some w ∧ r.IsImage h.plan? h'.handle? w := by
  -- neither a handle that is missing nor a forced copy answers with an old one
  have hfresh : h.copyFresh (copyNested h.host.length) i = (.ok k, h') := by
    unfold copy at hcopy
    split at hcopy
    next n hn => simp [hn] at hnew
    next => exact hcopy
  obtain ⟨hk, hi, hc⟩ := copyFresh_ok (traverses_copyNested _) hfresh
  have hgained := hc.gained_eq
  refine ⟨hc.plans, hc.host, hc.device, hk, hi, fun j n hj hn => ?_, hgained, hgained ▸ hc.bijOn,
    fun j hj => ?_⟩
  · -- an object with a handle gains none
    have hout : j ∉ h.gained i h' := by
      rintro (rfl | ⟨hnone, -⟩)
      · exact hj rfl
      · rw [hn] at hnone
        cases hnone
    rw [hc.kept j (hgained ▸ hout), hn]
  · obtain ⟨r, n, w, hr, hn, hw, himage⟩ := hc.mirrored j (hgained ▸ hj)
    exact ⟨r, n, w, hc.host ▸ hr, hn, hw, hc.plan?_eq ▸ himage⟩

/-- A node with a value, the node after it and the node that its part refers to. -/
def Sample.node (value : UInt64) (next owner : Option Nat) : Record where
  cls := "Node"
  values := [.word value, .object next, .embedded "Part" false [.object owner]]

/-- A ring of two nodes. The part that the second holds refers to a third, which refers to a node
with a handle; from there one would come to a fifth. The first node has a handle too. -/
def Sample.ring : Heap :=
  { ofPlans
      [{ object := "Node"
         fields := [{ name := "value", owner := "Node", kind := .plain false, syncBack := true },
           { name := "next", owner := "Node", kind := .nested "Node", syncBack := true },
           { name := "part", owner := "Node", kind := .embedded "Part", syncBack := true }] },
       { object := "Part"
         fields :=
           [{ name := "owner", owner := "Part", kind := .nested "Node", syncBack := true }] }]
    with
    host :=
      [node 1 (some 1) none, node 2 (some 0) (some 2), node 3 (some 3) none, node 4 (some 4) none,
       node 5 none none]
    device := [{ cls := "Node", values := [] }, { cls := "Node", values := [] }]
    handles := [(3, 1), (0, 0)] }

theorem copy_mirrors_reachable_sample : ∃ h', Sample.ring.copy 0 true = (.ok 2, h') ∧
    (∀ j, ReflTransGen Sample.ring.Leads 0 j ↔ j ∈ [0, 1, 2]) ∧ h'.handle? 3 = some 1 ∧
    Set.BijOn h'.handle? {j | ReflTransGen Sample.ring.Leads 0 j} (some '' Set.Ico 2 5) := by
  obtain ⟨h', hcopy, hhandles, hlength⟩ : ∃ h', Sample.ring.copy 0 true = (.ok 2, h') ∧
      h'.handles = [(2, 4), (1, 3), (0, 2), (3, 1), (0, 0)] ∧ h'.device.length = 5 :=
    ⟨_, rfl, rfl, rfl⟩
  obtain ⟨-, -, -, -, -, hkept, hgained, hbij, -⟩ := copy_mirrors_reachable (.inr rfl) hcopy
  rw [hgained, hlength] at hbij
  refine ⟨h', hcopy, fun j => ?_, hkept 3 1 (by decide) rfl, hbij⟩
  have hj : j ∈ Sample.ring.gained 0 h' ↔ ReflTransGen Sample.ring.Leads 0 j := by
    rw [hgained]
    exact Iff.rfl
  rw [← hj, gained, Set.mem_ofPred_eq, handle?, handle?, hhandles]
  match j with
  | 0 | 1 | 2 | 3 => decide
  | _ + 4 => simp [Sample.ring, List.lookup_cons]

end Heap

end ClassForge.Device

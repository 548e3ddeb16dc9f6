import ClassForge.Proofs.Device.Depth
import ClassForge.Proofs.Device.Frame
import ClassForge.Proofs.Device.Writes
import Mathlib.Order.Interval.Finset.Nat

/-!
# The calls of a copy

A copy calls itself wherever a reference leads, and nothing in a call says how deep the calls below
it nest. Here calls are given by rules, one for each way that a call can go, with the calls below it
as premises and no bound among them; `CopyEnds depth` is what they come to if no more than `depth`
calls nest. Every copy ends by these rules, and to the outcome that it is said to have: each call
that copies gives an object a handle first, and so leaves fewer objects for the calls below it.

For the same reason the device records that a copy adds are the handles of as many host objects.
-/

namespace ClassForge.Device

/-! ## Rules for copies -/

mutual

/-- `Value.ImageRun copies cls f v h o` says that making the image of a value comes to `o`, where
the copy of an object that it refers to comes to what `copies` has for it. -/
inductive Value.ImageRun (copies : Nat → Heap → Outcome Nat → Prop) :
    String → Field → Value → Heap → Outcome Value → Prop
  | plain {cls : String} {f : Field} {pointer : Bool} {v : Value} {h : Heap}
    (hk : f.kind = .plain pointer) : Value.ImageRun copies cls f v h (.ok v, h)
  | null {cls target : String} {f : Field} {h : Heap} (hk : f.kind = .nested target) :
    Value.ImageRun copies cls f (.object none) h (.ok (.object none), h)
  | object {cls target : String} {f : Field} {n : Nat} {h h' : Heap} (result : Except HeapError Nat)
    (hk : f.kind = .nested target) (hn : copies n h (result, h')) :
    Value.ImageRun copies cls f (.object (some n)) h (result.map fun k => .object (some k), h')
  | embedded {cls target inner : String} {f : Field} {onDevice : Bool} {values : List Value}
    {h h' : Heap} (result : Except HeapError (List Value)) (hk : f.kind = .embedded target)
    (hinner : Value.ObjectRun copies inner values h (result, h')) :
    Value.ImageRun copies cls f (.embedded inner onDevice values) h
      (result.map fun ws => .embedded inner true ws, h')
  | notObject {cls target : String} {f : Field} {v : Value} {h : Heap}
    (hk : f.kind = .nested target) (hv : ∀ ref, v ≠ .object ref) :
    Value.ImageRun copies cls f v h (.error (.wrongValue cls f.name), h)
  | notEmbedded {cls target : String} {f : Field} {v : Value} {h : Heap}
    (hk : f.kind = .embedded target) (hv : ∀ inner onDevice ws, v ≠ .embedded inner onDevice ws) :
    Value.ImageRun copies cls f v h (.error (.wrongValue cls f.name), h)

/-- Making the images of the values of an object of a class comes to an outcome. -/
inductive Value.ObjectRun (copies : Nat → Heap → Outcome Nat → Prop) :
    String → List Value → Heap → Outcome (List Value) → Prop
  | unknownClass {cls : String} {values : List Value} {h : Heap} (hplan : h.plan? cls = none) :
    Value.ObjectRun copies cls values h (.error (.unknownClass cls), h)
  | miscounted {cls : String} {values : List Value} {h : Heap} {plan : Plan} {e : HeapError}
    (hplan : h.plan? cls = some plan) (hcount : checkCount cls values plan = .error e) :
    Value.ObjectRun copies cls values h (.error e, h)
  | counted {cls : String} {values : List Value} {h : Heap} {plan : Plan} {o : Outcome (List Value)}
    (hplan : h.plan? cls = some plan) (hcount : checkCount cls values plan = .ok ())
    (himages : Value.ImagesRun copies cls plan.fields values h o) :
    Value.ObjectRun copies cls values h o

/-- Making the images of values one after the other comes to an outcome. -/
inductive Value.ImagesRun (copies : Nat → Heap → Outcome Nat → Prop) :
    String → List Field → List Value → Heap → Outcome (List Value) → Prop
  | nil {cls : String} {h : Heap} : Value.ImagesRun copies cls [] [] h (.ok [], h)
  | failed {cls : String} {f : Field} {fs : List Field} {v : Value} {vs : List Value} {h h' : Heap}
    {e : HeapError} (hhead : Value.ImageRun copies cls f v h (.error e, h')) :
    Value.ImagesRun copies cls (f :: fs) (v :: vs) h (.error e, h')
  | cons {cls : String} {f : Field} {fs : List Field} {v w : Value} {vs : List Value}
    {h h₁ h' : Heap} (result : Except HeapError (List Value))
    (hhead : Value.ImageRun copies cls f v h (.ok w, h₁))
    (htail : Value.ImagesRun copies cls fs vs h₁ (result, h')) :
    Value.ImagesRun copies cls (f :: fs) (v :: vs) h (result.map fun ws => w :: ws, h')

end

namespace Heap

/-- A call to copy an object comes to an outcome, where the calls below it come to what `copies` has
for them. A record is set aside before the first of these. -/
inductive CopyRun (copies : Nat → Heap → Outcome Nat → Prop) (i : Nat) (force : Bool) (h : Heap) :
    Outcome Nat → Prop
  | known {k : Nat} (hforce : force = false) (hk : h.handle? i = some k) :
    CopyRun copies i force h (.ok k, h)
  | missing (hnew : force = true ∨ h.handle? i = none) (hr : h.host[i]? = none) :
    CopyRun copies i force h (.error (.danglingReference .host i), h)
  | failed {r : Record} {e : HeapError} {h' : Heap} (hnew : force = true ∨ h.handle? i = none)
    (hr : h.host[i]? = some r)
    (hvalues : Value.ObjectRun copies r.cls r.values (h.reserve i r) (.error e, h')) :
    CopyRun copies i force h (.error e, h')
  | copied {r : Record} {values : List Value} {h' : Heap}
    (hnew : force = true ∨ h.handle? i = none) (hr : h.host[i]? = some r)
    (hvalues : Value.ObjectRun copies r.cls r.values (h.reserve i r) (.ok values, h')) :
    CopyRun copies i force h (.ok h.device.length, { h' with
      device := h'.device.set h.device.length { cls := r.cls, onDevice := true, values } })

/-- A call to copy an object comes to an end, and to the given outcome, with no more than `depth`
calls nested, itself among them. Calls below it are not forced. -/
def CopyEnds : (depth : Nat) → Nat → Bool → Heap → Outcome Nat → Prop
  | 0 => fun _ _ _ _ => False
  | depth + 1 => CopyRun fun n => CopyEnds depth n false

end Heap

/-- On heaps that have `I`, what `copy` gives is among what `copies` has, and they keep `I`. -/
structure Heap.Covers (I : Heap → Prop) (copies : Nat → Heap → Outcome Nat → Prop)
    (copy : Nat → Heap → Outcome Nat) : Prop where
  ends : ∀ n, ∀ h : Heap, I h → copies n h (copy n h)
  keeps : ∀ n, ∀ h : Heap, I h → I (copy n h).2

/-! ## What copies come to -/

section Images

variable {copies : Nat → Heap → Outcome Nat → Prop} {copy : Nat → Heap → Outcome Nat}

mutual

/-- If calls below come to what `copy` gives, the rules come to the image made with `copy`. -/
theorem Value.ImageRun.eq_image (hcopy : ∀ n h o, copies n h o → o = copy n h) :
    ∀ {cls : String} {f : Field} {v : Value} {h : Heap} {o : Outcome Value},
      Value.ImageRun copies cls f v h o → o = v.image copy cls f h
  | _, _, v, _, _, .plain hk => by cases v <;> simp only [Value.image, hk]
  | _, _, _, _, _, .null hk => by simp only [Value.image, hk]
  | _, _, _, _, _, .object result hk hn => by
    simp only [Value.image, hk, ← hcopy _ _ _ hn]
    cases result <;> rfl
  | _, _, _, _, _, .embedded _ hk (.unknownClass hplan) => by
    simp only [Value.image, hk, hplan, Except.map]
  | _, _, _, _, _, .embedded _ hk (.miscounted hplan hcount) => by
    simp only [Value.image, hk, hplan, hcount, Except.map]
  | _, _, _, _, _, .embedded result hk (.counted hplan hcount himages) => by
    simp only [Value.image, hk, hplan, hcount, ← himages.eq_images hcopy]
    cases result <;> rfl
  | _, _, v, _, _, .notObject hk hv => by
    cases v with
    | object ref => exact absurd rfl (hv ref)
    | word | array | embedded => simp only [Value.image, hk]
  | _, _, v, _, _, .notEmbedded hk hv => by
    cases v with
    | embedded inner onDevice ws => exact absurd rfl (hv inner onDevice ws)
    | word | array | object => simp only [Value.image, hk]

theorem Value.ImagesRun.eq_images (hcopy : ∀ n h o, copies n h o → o = copy n h) :
    ∀ {cls : String} {fs : List Field} {vs : List Value} {h : Heap} {o : Outcome (List Value)},
      Value.ImagesRun copies cls fs vs h o → o = Value.images copy cls fs vs h
  | _, _, _, _, _, .nil => by simp only [Value.images]
  | _, _, _, _, _, .failed hhead => by simp only [Value.images, ← hhead.eq_image hcopy]
  | _, _, _, _, _, .cons result hhead htail => by
    simp only [Value.images, ← hhead.eq_image hcopy, ← htail.eq_images hcopy]
    cases result <;> rfl

end

/-- The images of the values of a record make up the image of the record. -/
theorem Value.ObjectRun.image_eq (hcopy : ∀ n h o, copies n h o → o = copy n h) {r : Record}
    {h h' : Heap} {result : Except HeapError (List Value)}
    (hrun : Value.ObjectRun copies r.cls r.values h (result, h')) :
    r.image copy h = (result.map fun values => { cls := r.cls, onDevice := true, values }, h') := by
  cases hrun with
  | unknownClass hplan => simp only [Record.image, hplan, Except.map]
  | miscounted hplan hcount => simp only [Record.image, hplan, hcount, Except.map]
  | counted hplan hcount himages =>
    simp only [Record.image, hplan, hcount, ← himages.eq_images hcopy]
    cases result <;> rfl

section Covers

variable {I : Heap → Prop}

mutual

/-- Where the calls below come to what `copy` gives, there is a way by the rules to the image made
with `copy`. -/
theorem Value.imageRun (hcopy : Heap.Covers I copies copy) (cls : String) (f : Field) :
    ∀ (v : Value) (h : Heap), I h → Value.ImageRun copies cls f v h (v.image copy cls f h)
  | .word _, h, _ | .array _, h, _ => by
    cases hk : f.kind <;> simp only [Value.image, hk]
    · exact .plain hk
    · exact .notObject hk (by simp)
    · exact .notEmbedded hk (by simp)
  | .object none, h, _ => by
    cases hk : f.kind <;> simp only [Value.image, hk]
    · exact .plain hk
    · exact .null hk
    · exact .notEmbedded hk (by simp)
  | .object (some n), h, hI => by
    cases hk : f.kind <;> simp only [Value.image, hk]
    · exact .plain hk
    · have hn := hcopy.ends n h hI
      generalize copy n h = o at hn ⊢
      rcases o with ⟨_ | k, h'⟩ <;> exact .object _ hk hn
    · exact .notEmbedded hk (by simp)
  | .embedded inner onDevice values, h, hI => by
    cases hk : f.kind <;> simp only [Value.image, hk]
    · exact .plain hk
    · exact .notObject hk (by simp)
    · split
      next hplan => exact .embedded _ hk (.unknownClass hplan)
      next plan hplan =>
        split
        next e hcount => exact .embedded _ hk (.miscounted hplan hcount)
        next hcount =>
          have himages := Value.imagesRun hcopy inner plan.fields values h hI
            (checkCount_ok hcount)
          generalize Value.images copy inner plan.fields values h = o at himages ⊢
          rcases o with ⟨_ | ws, h'⟩ <;> exact .embedded _ hk (.counted hplan hcount himages)

theorem Value.imagesRun (hcopy : Heap.Covers I copies copy) (cls : String) :
    ∀ (fs : List Field) (vs : List Value) (h : Heap), I h → fs.length = vs.length →
      Value.ImagesRun copies cls fs vs h (Value.images copy cls fs vs h)
  | [], [], h, _, _ => by
    simp only [Value.images]
    exact .nil
  | f :: fs, v :: vs, h, hI, hlength => by
    have hhead := Value.imageRun hcopy cls f v h hI
    have hI₁ : I (v.image copy cls f h).2 :=
      Value.image_related (R := fun h h' => I h → I h') (fun _ hI => hI)
        (fun h₁ h₂ hI => h₂ (h₁ hI)) hcopy.keeps cls f v h hI
    simp only [Value.images]
    generalize v.image copy cls f h = o at hhead hI₁ ⊢
    rcases o with ⟨_ | w, h₁⟩
    · exact .failed hhead
    · have htail := Value.imagesRun hcopy cls fs vs h₁ hI₁ (Nat.succ.inj hlength)
      dsimp only
      generalize Value.images copy cls fs vs h₁ = o at htail ⊢
      rcases o with ⟨_ | ws, h'⟩ <;> exact .cons _ hhead htail

end

/-- The values of an object are run through as its record's image is made. -/
theorem Record.objectRun (hcopy : Heap.Covers I copies copy) (r : Record) {h : Heap} (hI : I h) :
    ∃ result, Value.ObjectRun copies r.cls r.values h (result, (r.image copy h).2) ∧
      (r.image copy h).1 = result.map fun values => { cls := r.cls, onDevice := true, values } := by
  unfold Record.image
  split
  next hplan => exact ⟨_, .unknownClass hplan, rfl⟩
  next plan hplan =>
    split
    next e hcount => exact ⟨_, .miscounted hplan hcount, rfl⟩
    next hcount =>
      have himages := Value.imagesRun hcopy r.cls plan.fields r.values h hI
        (checkCount_ok hcount)
      generalize Value.images copy r.cls plan.fields r.values h = o at himages ⊢
      rcases o with ⟨_ | values, h'⟩ <;> exact ⟨_, .counted hplan hcount himages, rfl⟩

end Covers

end Images

namespace Heap

/-- A copy that is forced, or of an object without a handle, is a new one, with copies below it that
are not forced. -/
theorem copy_new {h : Heap} {i : Nat} {force : Bool} (hnew : force = true ∨ h.handle? i = none) :
    h.copy i force = h.copyFresh (fun n h => h.copy n false) i := by
  -- no handle is there to answer with, or the force makes it ignored
  have hfresh : h.copy i force = h.copyFresh (copyNested h.host.length) i := by
    rcases copy_cases h i force with hfresh | ⟨hforce, k, hk, -⟩
    · exact hfresh
    · rcases hnew with hnew | hnone
      · rw [hforce] at hnew
        cases hnew
      · rw [hk] at hnone
        cases hnone
  rw [hfresh]
  unfold copyFresh
  split
  next => rfl
  next r hr =>
    have himage : r.image (copyNested h.host.length) (h.reserve i r) = _ :=
      Record.image_copyNested r (h.reserve i r)
    rw [himage]

/-- A copy comes to nothing but the outcome that it is said to have, whatever the depth. -/
theorem CopyEnds.eq_copy {depth : Nat} : ∀ {i : Nat} {force : Bool} {h : Heap} {o : Outcome Nat},
    CopyEnds depth i force h o → o = h.copy i force := by
  induction depth with
  | zero => exact fun hends => hends.elim
  | succ depth ih =>
    intro i force h o hends
    have hbelow : ∀ n h o, CopyEnds depth n false h o → o = h.copy n false := fun _ _ _ => ih
    cases hends with
    | known hforce hk => rw [hforce, copy_of_handle? hk]
    | missing hnew hr => rw [copy_new hnew, copyFresh, hr]
    | failed hnew hr hvalues =>
      rw [copy_new hnew, copyFresh, hr]
      simp only [hvalues.image_eq hbelow, Except.map]
    | copied hnew hr hvalues =>
      rw [copy_new hnew, copyFresh, hr]
      simp only [hvalues.image_eq hbelow, Except.map]

/-- Where the calls below a copy come to an end, so does the copy. -/
theorem Covers.copyRun {copies : Nat → Heap → Outcome Nat → Prop} {I : Heap → Prop}
    (hcopies : Covers I copies fun n h => h.copy n false) {h : Heap} {i : Nat} {force : Bool}
    (hI : force = true ∨ h.handle? i = none → ∀ r, h.host[i]? = some r → I (h.reserve i r)) :
    CopyRun copies i force h (h.copy i force) := by
  by_cases hnew : force = true ∨ h.handle? i = none
  · rw [copy_new hnew]
    unfold copyFresh
    split
    next hr => exact .missing hnew hr
    next r hr =>
      obtain ⟨result, hvalues, hresult⟩ := Record.objectRun hcopies r (hI hnew r hr)
      generalize r.image (fun n h => h.copy n false) (h.reserve i r) = o at hvalues hresult ⊢
      obtain ⟨image, h'⟩ := o
      obtain rfl : image = _ := hresult
      cases result with
      | error e => exact .failed hnew hr hvalues
      | ok values => exact .copied hnew hr hvalues
  · obtain ⟨hforce, hhandle⟩ := not_or.1 hnew
    obtain ⟨k, hk⟩ := Option.ne_none_iff_exists'.1 hhandle
    obtain rfl := Bool.eq_false_of_not_eq_true hforce
    rw [copy_of_handle? hk]
    exact .known rfl hk

/-- Copies that are not forced leave no more objects without a handle than there were. -/
theorem card_unhandled_copy_lt {depth : Nat} (n : Nat) (h : Heap)
    (hlt : h.unhandled.card < depth) : (h.copy n false).2.unhandled.card < depth := by
  rw [← copyNested_eq_copy h.card_unhandled_le]
  refine copyNested_keeps (P := fun h => h.unhandled.card < depth) ?_ ?_ _ n h hlt
  · exact fun hlt hr hnone => (card_unhandled_reserve_lt hr hnone).trans hlt
  · exact fun hlt => hlt

theorem card_unhandled_reserve_lt_length {h : Heap} {i : Nat} {r : Record}
    (hr : h.host[i]? = some r) : (h.reserve i r).unhandled.card < h.host.length := by
  have hlt := (List.getElem?_eq_some_iff.1 hr).1
  have hsubset : (h.reserve i r).unhandled ⊆ (Finset.range h.host.length).erase i := by
    intro j hj
    obtain ⟨hrange, hnone⟩ := Finset.mem_filter.1 hj
    refine Finset.mem_erase.2 ⟨?_, hrange⟩
    rintro rfl
    rw [reserve_handle?_self] at hnone
    cases hnone
  have hcard := Finset.card_le_card hsubset
  rw [Finset.card_erase_of_mem (Finset.mem_range.2 hlt), Finset.card_range] at hcard
  omega

/-- A copy that is not forced comes to an end with no more calls nested than there are objects
without a handle, and one more. -/
theorem copyEnds_nested {depth : Nat} : ∀ (n : Nat) (h : Heap), h.unhandled.card < depth →
    CopyEnds depth n false h (h.copy n false) := by
  induction depth with
  | zero => exact fun _ _ hlt => absurd hlt (Nat.not_lt_zero _)
  | succ depth ih =>
    intro n h hlt
    refine Covers.copyRun ⟨ih, card_unhandled_copy_lt⟩ fun hnew r hr => ?_
    have hnone := hnew.resolve_left Bool.false_ne_true
    have hless := card_unhandled_reserve_lt hr hnone
    omega

/-- A copy comes to an end with no more calls nested than there are host objects, and one more. -/
theorem copyEnds_copy (h : Heap) (i : Nat) (force : Bool) :
    h.CopyEnds (h.host.length + 1) i force (h.copy i force) :=
  Covers.copyRun ⟨copyEnds_nested, card_unhandled_copy_lt⟩ fun _ _ hr =>
    card_unhandled_reserve_lt_length hr

/-! ## Records that a copy adds -/

/-- The heaps are those that a call began with, but for device records, and each of these that was
added is the handle of a host object. -/
structure AddsHandles (base h : Heap) : Prop where
  host : h.host = base.host
  owner : ∀ k, base.device.length ≤ k → k < h.device.length →
    ∃ j < base.host.length, h.handle? j = some k

/-- One more record is set aside, for an object whose handle, if it has one, is not an added one. -/
theorem AddsHandles.reserve {base h : Heap} {i : Nat} {r : Record} (hadds : AddsHandles base h)
    (hr : h.host[i]? = some r)
    (hold : ∀ k, base.device.length ≤ k → k < h.device.length → h.handle? i ≠ some k) :
    AddsHandles base (h.reserve i r) := by
  refine ⟨hadds.host, fun k hbase hk => ?_⟩
  rw [Heap.reserve, List.length_append, List.length_singleton] at hk
  rcases Nat.lt_or_eq_of_le (Nat.le_of_lt_succ hk) with hlt | rfl
  · obtain ⟨j, hj, hhandle⟩ := hadds.owner k hbase hlt
    have hne : j ≠ i := by
      rintro rfl
      exact hold k hbase hlt hhandle
    exact ⟨j, hj, (reserve_handle?_of_ne r hne).trans hhandle⟩
  · have hlt := (List.getElem?_eq_some_iff.1 hr).1
    exact ⟨i, hadds.host ▸ hlt, reserve_handle?_self h i r⟩

theorem addsHandles_copy (h : Heap) (i : Nat) (force : Bool) :
    AddsHandles h (h.copy i force).2 := by
  have hstart : AddsHandles h h := ⟨rfl, fun _ hbase hk => absurd hbase (Nat.not_le_of_lt hk)⟩
  refine copy_keeps (P := AddsHandles h) (fun hadds hr hnone => hadds.reserve hr ?_)
    (fun hadds => ⟨hadds.host, fun k hbase hk => hadds.owner k hbase (List.length_set ▸ hk)⟩)
    hstart (fun r hr => hstart.reserve hr ?_) force
  · exact fun _ _ _ => by simp only [hnone, ne_eq, reduceCtorEq, not_false_eq_true]
  · exact fun _ hbase hk => absurd hbase (Nat.not_le_of_lt hk)

/-- No host object is the owner of two records. -/
theorem AddsHandles.length_le {base h : Heap} (hadds : AddsHandles base h) :
    h.device.length ≤ base.device.length + base.host.length := by
  have hsurj : Set.SurjOn (fun j => (h.handle? j).getD 0) (Finset.range base.host.length)
      (Finset.Ico base.device.length h.device.length) := by
    intro k hk
    obtain ⟨hbase, hlt⟩ := Finset.mem_Ico.1 hk
    obtain ⟨j, hj, hhandle⟩ := hadds.owner k hbase hlt
    exact ⟨j, Finset.mem_coe.2 (Finset.mem_range.2 hj), by simp only [hhandle, Option.getD_some]⟩
  have hcard := Finset.card_le_card_of_surjOn _ hsurj
  rw [Nat.card_Ico, Finset.card_range] at hcard
  omega

end Heap

end ClassForge.Device

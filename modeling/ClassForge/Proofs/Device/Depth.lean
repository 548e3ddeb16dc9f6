import ClassForge.Proofs.Device.Copy
import Mathlib.Data.Finset.Card
import Mathlib.Data.Finset.Range

/-!
# How deep copies nest

An object has its handle before the objects that it refers to are copied. So copies nest no deeper
than there are host objects without one, and a bound on the depth that is not below that number
never shows: nested copies are what they would be without a bound.
-/

namespace ClassForge.Device

/-- The host objects that have no handle. -/
def Heap.unhandled (h : Heap) : Finset Nat :=
  (Finset.range h.host.length).filter fun j => h.handle? j = none

section Agree

variable {copy copy' : Nat → Heap → Outcome Nat} {bound : Nat}

theorem Heap.Traversed.card_unhandled_le {h h₁ : Heap} {roots : List Nat} {new : Set Nat}
    (ht : h.Traversed roots new h₁) : h₁.unhandled.card ≤ h.unhandled.card := by
  refine Finset.card_le_card fun j hj => ?_
  obtain ⟨hlt, hnone⟩ := Finset.mem_filter.1 hj
  rw [ht.host] at hlt
  exact Finset.mem_filter.2 ⟨hlt, ht.handle?_eq_none_of hnone⟩

theorem Heap.card_unhandled_reserve_lt {h : Heap} {i : Nat} {r : Record}
    (hr : h.host[i]? = some r) (hi : h.handle? i = none) :
    (h.reserve i r).unhandled.card < h.unhandled.card := by
  have hlt := (List.getElem?_eq_some_iff.1 hr).1
  refine Finset.card_lt_card (Finset.ssubset_iff_of_subset ?_ |>.2 ⟨i, ?_, ?_⟩)
  · intro j hj
    obtain ⟨hj, hnone⟩ := Finset.mem_filter.1 hj
    have hne : j ≠ i := by
      rintro rfl
      rw [reserve_handle?_self] at hnone
      cases hnone
    exact Finset.mem_filter.2 ⟨hj, reserve_handle?_of_ne r hne ▸ hnone⟩
  · exact Finset.mem_filter.2 ⟨Finset.mem_range.2 hlt, hi⟩
  · intro hmem
    have hnone := (Finset.mem_filter.1 hmem).2
    rw [reserve_handle?_self] at hnone
    cases hnone

mutual

/-- Two ways to copy that agree where few objects have no handle give one image there. -/
theorem Value.image_congr (hcopy : Heap.Traverses copy)
    (hagree : ∀ n h, h.unhandled.card ≤ bound → copy n h = copy' n h) {cls : String} {f : Field} :
    ∀ {v : Value} {h : Heap}, h.unhandled.card ≤ bound →
      v.image copy cls f h = v.image copy' cls f h
  | .word _, h, _ => by simp only [Value.image]
  | .array _, h, _ => by simp only [Value.image]
  | .object ref, h, hle => by
    cases hk : f.kind <;> cases ref <;> simp only [Value.image, hk, hagree _ h hle]
  | .embedded inner onDevice values, h, hle => by
    simp only [Value.image, Value.images_congr hcopy hagree hle]

theorem Value.images_congr (hcopy : Heap.Traverses copy)
    (hagree : ∀ n h, h.unhandled.card ≤ bound → copy n h = copy' n h) {cls : String} :
    ∀ {vs : List Value} {fs : List Field} {h : Heap}, h.unhandled.card ≤ bound →
      Value.images copy cls fs vs h = Value.images copy' cls fs vs h
  | [], fs, h, _ => by simp only [Value.images]
  | v :: vs, [], h, _ => by simp only [Value.images]
  | v :: vs, f :: fs, h, hle => by
    simp only [Value.images, ← Value.image_congr hcopy hagree hle]
    split
    next => rfl
    next w h₁ hw =>
      -- the first image adds handles, so fewer are missing for the rest
      obtain ⟨new, ht, -⟩ := Value.image_ok hcopy hw
      rw [Value.images_congr hcopy hagree (ht.card_unhandled_le.trans hle)]

end

theorem Record.image_congr (hcopy : Heap.Traverses copy)
    (hagree : ∀ n h, h.unhandled.card ≤ bound → copy n h = copy' n h) {r : Record} {h : Heap}
    (hle : h.unhandled.card ≤ bound) : r.image copy h = r.image copy' h := by
  simp only [Record.image, Value.images_congr hcopy hagree hle]

end Agree

namespace Heap

/-- A bound that is not below the number of objects without a handle can as well be larger. -/
theorem copyNested_succ {bound : Nat} : ∀ {i : Nat} {h : Heap}, h.unhandled.card ≤ bound →
    copyNested bound i h = copyNested (bound + 1) i h := by
  induction bound with
  | zero =>
    intro i h hle
    simp only [copyNested]
    split
    next => rfl
    next hnone =>
      -- without a handle the object would be counted, so the index is of no record
      have hdangling : h.host[i]? = none := by
        cases hr : h.host[i]? with
        | none => rfl
        | some r => exact absurd (card_unhandled_reserve_lt hr hnone) (by omega)
      rw [copyFresh, hdangling]
  | succ bound ih =>
    intro i h hle
    rw [copyNested, copyNested]
    split
    next => rfl
    next hnone =>
      unfold copyFresh
      split
      next => rfl
      next r hr =>
        have hlt := card_unhandled_reserve_lt hr hnone
        rw [Record.image_congr (traverses_copyNested bound) (fun _ _ => ih) (by omega)]

/-- Nested copies never use up a bound that is as large as the number of objects without a handle:
an object without one is copied, and what it refers to is copied as if under the same bound
again. -/
theorem copyNested_eq {bound : Nat} {h : Heap} (hle : h.unhandled.card ≤ bound) (i : Nat) :
    copyNested bound i h =
      match h.handle? i with
      | some handle => (.ok handle, h)
      | none => h.copyFresh (copyNested bound) i :=
  (copyNested_succ hle).trans rfl

theorem card_unhandled_le (h : Heap) : h.unhandled.card ≤ h.host.length :=
  (Finset.card_filter_le _ _).trans (Finset.card_range _).le

/-- Two bounds that are large enough come to the same. -/
theorem copyNested_of_le {bound bound' : Nat} {i : Nat} {h : Heap}
    (hle : h.unhandled.card ≤ bound) (hbound : bound ≤ bound') :
    copyNested bound i h = copyNested bound' i h := by
  induction bound', hbound using Nat.le_induction with
  | base => rfl
  | succ n hn ih => exact ih.trans (copyNested_succ (hle.trans hn))

/-- A nested copy under a bound that is large enough is a copy that is not forced. -/
theorem copyNested_eq_copy {bound : Nat} {i : Nat} {h : Heap} (hle : h.unhandled.card ≤ bound) :
    copyNested bound i h = h.copy i false := by
  have hlength : copyNested bound i h = copyNested h.host.length i h :=
    (copyNested_of_le (Nat.le_refl _) hle).symm.trans
      (copyNested_of_le (Nat.le_refl _) h.card_unhandled_le)
  rw [hlength, copyNested_eq h.card_unhandled_le]
  unfold copy
  cases h.handle? i <;> rfl

end Heap

/-- What a record refers to is copied as an object that is not forced to be. -/
theorem Record.image_copyNested (r : Record) (h : Heap) :
    r.image (Heap.copyNested h.host.length) h = r.image (fun n h => h.copy n false) h :=
  r.image_congr (Heap.traverses_copyNested _) (fun _ _ => Heap.copyNested_eq_copy)
    h.card_unhandled_le

end ClassForge.Device

import ClassForge.Device.Heap.Copy

/-!
# What a copy writes

A copy changes the heaps in two ways: it sets a device record aside for a host object, and it fills
one in. So a property of heaps that both keep is kept by every copy, however deep it nests and
whatever comes of it.
-/

namespace ClassForge.Device

variable {copy : Nat → Heap → Outcome Nat}

section Related

variable {R : Heap → Heap → Prop}

mutual

/-- How the heaps before and after the copy of an object are related, so are those before and after
the image of a value is made. -/
theorem Value.image_related (hrefl : ∀ h, R h h)
    (htrans : ∀ {h₁ h₂ h₃ : Heap}, R h₁ h₂ → R h₂ h₃ → R h₁ h₃)
    (hcopy : ∀ n, ∀ h : Heap, R h (copy n h).2) (cls : String) (f : Field) :
    ∀ (v : Value) (h : Heap), R h (v.image copy cls f h).2
  | .word _, h => by
    cases hk : f.kind <;> simp only [Value.image, hk] <;> exact hrefl h
  | .array _, h => by
    cases hk : f.kind <;> simp only [Value.image, hk] <;> exact hrefl h
  | .object ref, h => by
    cases hk : f.kind with
    | plain pointer => simp only [Value.image, hk]; exact hrefl h
    | embedded target => simp only [Value.image, hk]; exact hrefl h
    | nested target =>
      cases ref with
      | none => simp only [Value.image, hk]; exact hrefl h
      | some n =>
        have hn := hcopy n h
        simp only [Value.image, hk]
        split <;> next heq => rw [heq] at hn; exact hn
  | .embedded inner onDevice values, h => by
    cases hk : f.kind with
    | plain pointer => simp only [Value.image, hk]; exact hrefl h
    | nested target => simp only [Value.image, hk]; exact hrefl h
    | embedded target =>
      simp only [Value.image, hk]
      split
      next => exact hrefl h
      next plan hplan =>
        split
        next => exact hrefl h
        next =>
          have hall := Value.images_related hrefl htrans hcopy inner plan.fields values h
          split <;> next heq => rw [heq] at hall; exact hall

theorem Value.images_related (hrefl : ∀ h, R h h)
    (htrans : ∀ {h₁ h₂ h₃ : Heap}, R h₁ h₂ → R h₂ h₃ → R h₁ h₃)
    (hcopy : ∀ n, ∀ h : Heap, R h (copy n h).2) (cls : String) :
    ∀ (fs : List Field) (vs : List Value) (h : Heap), R h (Value.images copy cls fs vs h).2
  | fs, [], h => by
    cases fs <;> simp only [Value.images] <;> exact hrefl h
  | [], v :: vs, h => by
    simp only [Value.images]
    exact hrefl h
  | f :: fs, v :: vs, h => by
    have hhead := Value.image_related hrefl htrans hcopy cls f v h
    simp only [Value.images]
    split
    next heq => rw [heq] at hhead; exact hhead
    next w h₁ heq =>
      rw [heq] at hhead
      have htail := Value.images_related hrefl htrans hcopy cls fs vs h₁
      split <;> next heq' => rw [heq'] at htail; exact htrans hhead htail

end

theorem Record.image_related (hrefl : ∀ h, R h h)
    (htrans : ∀ {h₁ h₂ h₃ : Heap}, R h₁ h₂ → R h₂ h₃ → R h₁ h₃)
    (hcopy : ∀ n, ∀ h : Heap, R h (copy n h).2) (r : Record) (h : Heap) :
    R h (r.image copy h).2 := by
  unfold Record.image
  split
  next => exact hrefl h
  next plan hplan =>
    split
    next => exact hrefl h
    next =>
      have hall := Value.images_related hrefl htrans hcopy r.cls plan.fields r.values h
      split <;> next heq => rw [heq] at hall; exact hall

end Related

namespace Heap

variable {P : Heap → Prop} {h : Heap} {i : Nat}

theorem copy_of_handle? {k : Nat} (hk : h.handle? i = some k) : h.copy i false = (.ok k, h) := by
  simp only [copy, hk]

/-- A copy is a new one, unless it is unforced and there is a handle to return. -/
theorem copy_cases (h : Heap) (i : Nat) (force : Bool) :
    h.copy i force = h.copyFresh (copyNested h.host.length) i ∨
      force = false ∧ ∃ k, h.handle? i = some k ∧ h.copy i force = (.ok k, h) := by
  unfold copy
  split
  next k hk => exact .inr ⟨rfl, k, hk, rfl⟩
  next => exact .inl rfl

/-- A new copy keeps what nested copies keep, and what setting a record aside for its object and
filling one in does not break. -/
theorem copyFresh_keeps (hcopy : ∀ n, ∀ h : Heap, P h → P (copy n h).2)
    (hfill : ∀ {h : Heap} {k : Nat} {w : Record}, P h → P { h with device := h.device.set k w })
    (hP : P h) (hreserve : ∀ r, h.host[i]? = some r → P (h.reserve i r)) :
    P (h.copyFresh copy i).2 := by
  unfold copyFresh
  split
  next => exact hP
  next r hr =>
    -- an invariant is a relation that every step keeps
    have himage : P (r.image copy (h.reserve i r)).2 :=
      Record.image_related (R := fun h h' => P h → P h') (fun _ hP => hP)
        (fun h₁ h₂ hP => h₂ (h₁ hP)) hcopy r (h.reserve i r) (hreserve r hr)
    split
    next heq =>
      rw [heq] at himage
      exact himage
    next heq =>
      rw [heq] at himage
      exact hfill himage

section Keeps

variable
  (hreserve : ∀ {h : Heap} {i : Nat} {r : Record}, P h → h.host[i]? = some r → h.handle? i = none →
    P (h.reserve i r))
  (hfill : ∀ {h : Heap} {k : Nat} {w : Record}, P h → P { h with device := h.device.set k w })

include hreserve hfill

/-- In nested copies a record is set aside only for an object that has no handle. -/
theorem copyNested_keeps (bound : Nat) : ∀ n, ∀ h : Heap, P h → P (copyNested bound n h).2 := by
  induction bound with
  | zero =>
    intro n h hP
    unfold copyNested
    split <;> exact hP
  | succ bound ih =>
    intro n h hP
    unfold copyNested
    split
    next => exact hP
    next hnone => exact copyFresh_keeps ih hfill hP fun r hr => hreserve hP hr hnone

/-- The object that a copy is called for may have had a handle, which the new one takes the place
of. -/
theorem copy_keeps (hP : P h) (hfirst : ∀ r, h.host[i]? = some r → P (h.reserve i r))
    (force : Bool) : P (h.copy i force).2 := by
  rcases copy_cases h i force with hnew | ⟨-, k, -, hold⟩
  · rw [hnew]
    exact copyFresh_keeps (copyNested_keeps hreserve hfill _) hfill hP hfirst
  · rw [hold]
    exact hP

end Keeps

end Heap

end ClassForge.Device

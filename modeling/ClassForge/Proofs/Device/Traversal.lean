import ClassForge.Proofs.Device.Image
import Mathlib.Data.Set.Function
import Mathlib.Logic.Relation
import Mathlib.Order.Interval.Set.LinearOrder

/-!
# Traversals

A copy walks the host objects depth first and changes the heaps on the way. `Traversed` says what a
part of the walk leaves behind: the objects copied in it, where their records are and what they are.
One traversal after another is one, so the values of a record are traversed if the objects that they
refer to are.
-/

namespace ClassForge.Device

open Relation

namespace Heap

/-! ## Traversals -/

/-- One object refers to another, which has no handle. -/
def Leads (h : Heap) (a b : Nat) : Prop :=
  (∃ r, h.host[a]? = some r ∧ b ∈ r.references h.plan?) ∧ h.handle? b = none

/-- An object's handle is a device record that is its image. -/
def Mirrored (h : Heap) (j : Nat) : Prop :=
  ∃ r k w, h.host[j]? = some r ∧ h.handle? j = some k ∧ h.device[k]? = some w ∧
    r.IsImage h.plan? h.handle? w

/-- Between `h` and `h'` the objects `new` were copied, each to a device record of its own behind
the ones that were there, and nothing else has changed. -/
structure Copied (h : Heap) (new : Set Nat) (h' : Heap) : Prop where
  plans : h'.plans = h.plans
  host : h'.host = h.host
  device : h.device <+: h'.device
  kept : ∀ j ∉ new, h'.handle? j = h.handle? j
  bijOn : Set.BijOn h'.handle? new (some '' Set.Ico h.device.length h'.device.length)
  mirrored : ∀ j ∈ new, h'.Mirrored j

/-- Between `h` and `h'` the objects `new` were copied, all of them reached from those of the
objects `roots` that had no handle. -/
structure Traversed (h : Heap) (roots : List Nat) (new : Set Nat) (h' : Heap) : Prop
    extends h.Copied new h' where
  reached : ∀ j ∈ new, ∃ b ∈ roots, h.handle? b = none ∧ ReflTransGen h.Leads b j

theorem Copied.plan?_eq {h h' : Heap} {new : Set Nat} (hc : h.Copied new h') :
    h'.plan? = h.plan? := by
  funext cls
  rw [plan?, plan?, hc.plans]

theorem getElem?_of_prefix {α : Type} {l l' : List α} {i : Nat} {a : α} (hp : l <+: l')
    (hi : l[i]? = some a) : l'[i]? = some a := by
  obtain ⟨hlt, rfl⟩ := List.getElem?_eq_some_iff.1 hi
  exact List.prefix_iff_getElem?.1 hp i hlt

namespace Traversed

variable {h h₁ h₂ : Heap} {roots more : List Nat} {new new₁ new₂ : Set Nat}

theorem refl (h : Heap) (roots : List Nat) : h.Traversed roots ∅ h where
  plans := rfl
  host := rfl
  device := List.prefix_refl _
  kept _ _ := rfl
  bijOn := by
    rw [Set.Ico_self, Set.image_empty]
    exact Set.bijOn_empty _
  mirrored _ hj := hj.elim
  reached _ hj := hj.elim

theorem handle?_eq_none (ht : h.Traversed roots new h₁) {j : Nat} (hj : j ∈ new) :
    h.handle? j = none := by
  obtain ⟨b, -, hb, hpath⟩ := ht.reached j hj
  rcases hpath.cases_tail with rfl | ⟨_, -, hlast⟩
  · exact hb
  · exact hlast.2

/-- Handles stay. -/
theorem handle?_eq_some (ht : h.Traversed roots new h₁) {n k : Nat} (hn : h.handle? n = some k) :
    h₁.handle? n = some k := by
  have hold : n ∉ new := fun hmem => by
    rw [ht.handle?_eq_none hmem] at hn
    cases hn
  rw [ht.kept n hold, hn]

theorem handle?_eq_none_of (ht : h.Traversed roots new h₁) {n : Nat} (hn : h₁.handle? n = none) :
    h.handle? n = none := by
  cases hold : h.handle? n with
  | none => rfl
  | some k => rw [ht.handle?_eq_some hold] at hn; cases hn

theorem leads (ht : h.Traversed roots new h₁) {a b : Nat} (hab : h₁.Leads a b) : h.Leads a b := by
  obtain ⟨⟨r, hr, hb⟩, hnone⟩ := hab
  rw [ht.host] at hr
  rw [ht.plan?_eq] at hb
  exact ⟨⟨r, hr, hb⟩, ht.handle?_eq_none_of hnone⟩

theorem mirrored_of_mirrored (ht : h.Traversed roots new h₁) {j : Nat} (hj : h.Mirrored j) :
    h₁.Mirrored j := by
  obtain ⟨r, k, w, hr, hk, hw, himage⟩ := hj
  refine ⟨r, k, w, ht.host ▸ hr, ht.handle?_eq_some hk, getElem?_of_prefix ht.device hw, ?_⟩
  rw [ht.plan?_eq]
  exact himage.mono fun _ _ => ht.handle?_eq_some

/-- The new objects of one traversal have handles by the time of the next. -/
theorem handle?_ne_none (ht : h.Traversed roots new h₁) {j : Nat} (hj : j ∈ new) :
    h₁.handle? j ≠ none := by
  obtain ⟨k, -, hk⟩ := ht.bijOn.mapsTo hj
  rw [← hk]
  exact Option.some_ne_none k

theorem trans (ht₁ : h.Traversed roots new₁ h₁) (ht₂ : h₁.Traversed more new₂ h₂) :
    h.Traversed (roots ++ more) (new₁ ∪ new₂) h₂ where
  plans := ht₂.plans.trans ht₁.plans
  host := ht₂.host.trans ht₁.host
  device := ht₁.device.trans ht₂.device
  kept j hj := by
    rw [ht₂.kept j fun hmem => hj (.inr hmem), ht₁.kept j fun hmem => hj (.inl hmem)]
  bijOn := by
    -- objects with a handle after the first part are not copied by the second
    have hdisjoint : ∀ j ∈ new₁, j ∉ new₂ := fun j hj hmem =>
      ht₁.handle?_ne_none hj (ht₂.handle?_eq_none hmem)
    have hfirst : Set.BijOn h₂.handle? new₁
        (some '' Set.Ico h.device.length h₁.device.length) :=
      ht₁.bijOn.congr fun j hj => (ht₂.kept j (hdisjoint j hj)).symm
    rw [← Set.Ico_union_Ico_eq_Ico ht₁.device.length_le ht₂.device.length_le, Set.image_union]
    refine hfirst.union ht₂.bijOn ?_
    rw [Set.injOn_union (Set.disjoint_left.2 hdisjoint)]
    -- the two parts take their records from ranges that do not overlap
    refine ⟨hfirst.injOn, ht₂.bijOn.injOn, fun i hi j hj heq => ?_⟩
    obtain ⟨k, hk, hki⟩ := hfirst.mapsTo hi
    obtain ⟨l, hl, hlj⟩ := ht₂.bijOn.mapsTo hj
    obtain rfl : k = l := Option.some.inj (hki.trans (heq.trans hlj.symm))
    exact absurd hl.1 (Nat.not_le_of_lt hk.2)
  mirrored j hj := by
    rcases hj with hj | hj
    · exact ht₂.mirrored_of_mirrored (ht₁.mirrored j hj)
    · exact ht₂.mirrored j hj
  reached j hj := by
    rcases hj with hj | hj
    · obtain ⟨b, hb, hnone, hpath⟩ := ht₁.reached j hj
      exact ⟨b, List.mem_append_left _ hb, hnone, hpath⟩
    · obtain ⟨b, hb, hnone, hpath⟩ := ht₂.reached j hj
      exact ⟨b, List.mem_append_right _ hb, ht₁.handle?_eq_none_of hnone,
        ReflTransGen.mono (fun _ _ => ht₁.leads) _ _ hpath⟩

end Traversed

/-- What copying an object comes to where it succeeds: the object has the handle that is returned,
and nothing was copied but what is reached from it. -/
def Traverses (copy : Nat → Heap → Outcome Nat) : Prop :=
  ∀ ⦃n : Nat⦄ ⦃h : Heap⦄ ⦃k : Nat⦄ ⦃h' : Heap⦄, copy n h = (.ok k, h') →
    ∃ new, h.Traversed [n] new h' ∧ h'.handle? n = some k

end Heap

/-! ## Values and records -/

section Values

variable {copy : Nat → Heap → Outcome Nat}

theorem checkCount_ok {cls : String} {values : List Value} {plan : Plan}
    (h : checkCount cls values plan = .ok ()) : plan.fields.length = values.length := by
  unfold checkCount at h
  split at h
  next heq => exact heq.symm
  next => cases h

theorem checkCount_eq_ok {cls : String} {values : List Value} {plan : Plan}
    (hlength : plan.fields.length = values.length) : checkCount cls values plan = .ok () :=
  if_pos hlength.symm

/-- What crosses byte by byte is its own image. -/
theorem Value.image_plain {cls : String} {f : Field} {pointer : Bool} (hk : f.kind = .plain pointer)
    (v : Value) (h : Heap) : v.image copy cls f h = (.ok v, h) := by
  cases v <;> simp [Value.image, hk]

/-- What crosses as a reference is one: null, or to an object that is copied. -/
theorem Value.image_nested {cls target : String} {f : Field} {v w : Value} {h h' : Heap}
    (hk : f.kind = .nested target) (hw : v.image copy cls f h = (.ok w, h')) :
    (v = .object none ∧ w = .object none ∧ h' = h) ∨
      ∃ n k, v = .object (some n) ∧ w = .object (some k) ∧ copy n h = (.ok k, h') := by
  -- only a reference has an image there; any other value is the wrong kind
  cases v with
  | word x => simp [Value.image, hk] at hw
  | array xs => simp [Value.image, hk] at hw
  | embedded inner onDevice values => simp [Value.image, hk] at hw
  | object ref =>
    cases ref with
    | none =>
      simp only [Value.image, hk] at hw
      cases hw
      exact .inl ⟨rfl, rfl, rfl⟩
    | some n =>
      simp only [Value.image, hk] at hw
      split at hw
      next k h₁ hn => cases hw; exact .inr ⟨n, k, rfl, rfl, hn⟩
      next => cases hw

/-- What crosses as an object by value is one, and its values cross by the plan of its class. -/
theorem Value.image_embedded {cls target : String} {f : Field} {v w : Value} {h h' : Heap}
    (hk : f.kind = .embedded target) (hw : v.image copy cls f h = (.ok w, h')) :
    ∃ inner onDevice values plan images, v = .embedded inner onDevice values ∧
      h.plan? inner = some plan ∧ plan.fields.length = values.length ∧
      Value.images copy inner plan.fields values h = (.ok images, h') ∧
      w = .embedded inner true images := by
  cases v with
  | word x => simp [Value.image, hk] at hw
  | array xs => simp [Value.image, hk] at hw
  | object ref => simp [Value.image, hk] at hw
  | embedded inner onDevice values =>
    simp only [Value.image, hk] at hw
    split at hw
    next => cases hw
    next plan hplan =>
      split at hw
      next => cases hw
      next hcount =>
        split at hw
        next images h₁ himages =>
          cases hw
          exact ⟨inner, onDevice, values, plan, images, rfl, hplan, checkCount_ok hcount, himages,
            rfl⟩
        next => cases hw

mutual

/-- Copying a value gives its image and traverses what the value refers to. -/
theorem Value.image_ok (hcopy : Heap.Traverses copy) {cls : String} {f : Field} {v w : Value}
    {h h' : Heap} (hw : v.image copy cls f h = (.ok w, h')) :
    ∃ new, h.Traversed (v.references h.plan? f.kind) new h' ∧
      v.IsImage h.plan? h'.handle? f.kind w := by
  cases hk : f.kind with
  | plain pointer =>
    rw [Value.image_plain hk] at hw
    cases hw
    exact ⟨∅, .refl h _, .plain⟩
  | nested target =>
    obtain ⟨rfl, rfl, rfl⟩ | ⟨n, k, rfl, rfl, hn⟩ := Value.image_nested hk hw
    · exact ⟨∅, .refl _ _, .null⟩
    · obtain ⟨new, ht, hhandle⟩ := hcopy hn
      exact ⟨new, ht, .object hhandle⟩
  | embedded target =>
    obtain ⟨inner, onDevice, values, plan, images, hv, hplan, hlength, himages, rfl⟩ :=
      Value.image_embedded hk hw
    obtain ⟨new, ht, hall⟩ := Value.images_ok hcopy hlength himages
    -- `hv` stays up to here, for the measure of the call
    subst hv
    refine ⟨new, ?_, .embedded hplan hall⟩
    simpa only [Value.references, hplan] using ht
termination_by sizeOf v
decreasing_by simp only [hv, Value.embedded.sizeOf_spec]; omega

/-- Copying the values of a record's fields gives their images and traverses what they refer to. -/
theorem Value.images_ok (hcopy : Heap.Traverses copy) {cls : String} {fs : List Field}
    {vs ws : List Value} {h h' : Heap} (hlength : fs.length = vs.length)
    (hws : Value.images copy cls fs vs h = (.ok ws, h')) :
    ∃ new, h.Traversed (Value.allReferences h.plan? fs vs) new h' ∧
      Value.AreImages h.plan? h'.handle? fs vs ws := by
  match fs, vs with
  | [], [] =>
    simp only [Value.images] at hws
    cases hws
    exact ⟨∅, .refl h _, .nil⟩
  | f :: fs, v :: vs =>
    simp only [Value.images] at hws
    split at hws
    next => cases hws
    next w h₁ hw =>
      split at hws
      next => cases hws
      next ws h₂ htail =>
        cases hws
        obtain ⟨new₁, ht₁, himage⟩ := Value.image_ok hcopy hw
        obtain ⟨new₂, ht₂, himages⟩ := Value.images_ok hcopy (Nat.succ.inj hlength) htail
        rw [ht₁.plan?_eq] at ht₂ himages
        rw [Value.allReferences]
        -- later fields replace no handle that the first one was mirrored by
        exact ⟨new₁ ∪ new₂, ht₁.trans ht₂,
          .cons (himage.mono fun _ _ => ht₂.handle?_eq_some) himages⟩
termination_by sizeOf vs

end

/-- Copying a record gives its image and traverses what the record refers to. -/
theorem Record.image_ok (hcopy : Heap.Traverses copy) {r w : Record} {h h' : Heap}
    (hw : r.image copy h = (.ok w, h')) :
    ∃ new, h.Traversed (r.references h.plan?) new h' ∧ r.IsImage h.plan? h'.handle? w := by
  unfold Record.image at hw
  split at hw
  next => cases hw
  next plan hplan =>
    split at hw
    next => cases hw
    next hcount =>
      split at hw
      next images h₁ himages =>
        cases hw
        obtain ⟨new, ht, hall⟩ := Value.images_ok hcopy (checkCount_ok hcount) himages
        refine ⟨new, ?_, rfl, rfl, plan, hplan, hall⟩
        simpa only [Record.references, hplan] using ht
      next => cases hw

end Values

end ClassForge.Device

import ClassForge.Proofs.Device.Depth
import ClassForge.Proofs.Device.Writes

/-!
# Objects that can cross

A copy fails at the first object that is not there or does not have the shape that its class's plan
asks for. Main statement: a copy succeeds exactly where all objects that it reaches are there and
can cross.

Whether an object can cross does not depend on the device, so what holds of the objects that a copy
is still to reach holds of them whatever it has copied so far.
-/

namespace ClassForge.Device

open Relation

variable {plan? : String → Option Plan} {handle? : Nat → Option Nat}

/-! ## Shape -/

mutual

/-- A value that can cross in a field of the given kind: anything byte by byte, a reference, null
or not, where an object crosses, and an object by value whose own values can cross by the plan of
its class. -/
inductive Value.Crosses (plan? : String → Option Plan) : FieldKind → Value → Prop
  | plain {pointer : Bool} {v : Value} : Value.Crosses plan? (.plain pointer) v
  | nested {cls : String} {ref : Option Nat} : Value.Crosses plan? (.nested cls) (.object ref)
  | embedded {cls inner : String} {onDevice : Bool} {plan : Plan} {values : List Value}
    (hplan : plan? inner = some plan) (hvalues : Value.AllCross plan? plan.fields values) :
    Value.Crosses plan? (.embedded cls) (.embedded inner onDevice values)

/-- The values of fields can cross one by one, none left over. -/
inductive Value.AllCross (plan? : String → Option Plan) : List Field → List Value → Prop
  | nil : Value.AllCross plan? [] []
  | cons {f : Field} {fs : List Field} {v : Value} {vs : List Value}
    (hhead : Value.Crosses plan? f.kind v) (htail : Value.AllCross plan? fs vs) :
    Value.AllCross plan? (f :: fs) (v :: vs)

end

/-- An object that can cross: its class has a plan, and its values can cross by it. -/
def Record.Crosses (plan? : String → Option Plan) (r : Record) : Prop :=
  ∃ plan, plan? r.cls = some plan ∧ Value.AllCross plan? plan.fields r.values

/-- As many values as fields. -/
theorem Value.AllCross.length_eq :
    ∀ {fs : List Field} {vs : List Value}, Value.AllCross plan? fs vs → fs.length = vs.length
  | _, _, .nil => rfl
  | _, _, .cons _ htail => congrArg (· + 1) htail.length_eq

mutual

/-- What has an image can cross. -/
theorem Value.IsImage.crosses : ∀ {kind : FieldKind} {v w : Value},
    Value.IsImage plan? handle? kind v w → Value.Crosses plan? kind v
  | _, _, _, .plain => .plain
  | _, _, _, .null => .nested
  | _, _, _, .object _ => .nested
  | _, _, _, .embedded hplan himages => .embedded hplan himages.allCross

theorem Value.AreImages.allCross : ∀ {fs : List Field} {vs ws : List Value},
    Value.AreImages plan? handle? fs vs ws → Value.AllCross plan? fs vs
  | _, _, _, .nil => .nil
  | _, _, _, .cons hhead htail => .cons hhead.crosses htail.allCross

end

theorem Record.IsImage.crosses {r w : Record} (himage : r.IsImage plan? handle? w) :
    r.Crosses plan? := by
  obtain ⟨plan, hplan, himages⟩ := himage.values
  exact ⟨plan, hplan, himages.allCross⟩

/-! ## Objects that are ready -/

namespace Heap

/-- All objects that a new copy of an object reaches are there and can cross. -/
def Copyable (h : Heap) (i : Nat) : Prop :=
  ∀ j, ReflTransGen h.Leads i j → ∃ r, h.host[j]? = some r ∧ r.Crosses h.plan?

/-- An object that a reference can be redirected to: it has a handle, or a new copy of it reaches
nothing that cannot cross. -/
def Ready (h : Heap) (i : Nat) : Prop :=
  h.handle? i = none → h.Copyable i

/-- What is ready stays ready on the way of a copy. -/
theorem Ready.traversed {h h₁ : Heap} {roots : List Nat} {new : Set Nat} {i : Nat}
    (hi : h.Ready i) (ht : h.Traversed roots new h₁) : h₁.Ready i := by
  intro hnone j hpath
  have hpath' : ReflTransGen h.Leads i j := ReflTransGen.mono (fun _ _ => ht.leads) _ _ hpath
  rw [ht.host, ht.plan?_eq]
  exact hi (ht.handle?_eq_none_of hnone) j hpath'

/-- What a copyable object refers to is ready once a record is set aside for the object. -/
theorem Copyable.ready {h : Heap} {i n : Nat} {r : Record} (hi : h.Copyable i)
    (hr : h.host[i]? = some r) (hn : n ∈ r.references h.plan?) : (h.reserve i r).Ready n := by
  intro hnone j hpath
  have hstep : h.Leads i n := leads_of_reserve ⟨⟨r, hr, hn⟩, hnone⟩
  exact hi j (.head hstep (ReflTransGen.mono (fun _ _ => leads_of_reserve) _ _ hpath))

/-- Copying ready objects succeeds where at most `bound` objects have no handle. -/
def Succeeds (bound : Nat) (copy : Nat → Heap → Outcome Nat) : Prop :=
  ∀ n, ∀ h : Heap, h.unhandled.card ≤ bound → h.Ready n → ∃ k h', copy n h = (.ok k, h')

end Heap

/-! ## Values and records -/

section Values

variable {copy : Nat → Heap → Outcome Nat} {bound : Nat}

mutual

/-- A value that can cross has an image if the objects that it refers to are ready. -/
theorem Value.Crosses.exists_image (hcopy : Heap.Traverses copy) (hok : Heap.Succeeds bound copy)
    (cls : String) {f : Field} :
    ∀ {v : Value} {h : Heap}, Value.Crosses h.plan? f.kind v → h.unhandled.card ≤ bound →
      (∀ n ∈ v.references h.plan? f.kind, h.Ready n) →
      ∃ w h', v.image copy cls f h = (.ok w, h') := by
  intro v h hv hle hready
  -- copying goes by the kind of the field, and the value was said to fit that
  cases hk : f.kind with
  | plain pointer => exact ⟨v, h, Value.image_plain hk v h⟩
  | nested target =>
    rw [hk] at hv hready
    cases hv with
    | @nested _ ref =>
      cases ref with
      | none => exact ⟨_, _, by simp only [Value.image, hk]; rfl⟩
      | some n =>
        obtain ⟨k, h', hn⟩ := hok n h hle (hready n (by simp [Value.references]))
        exact ⟨_, _, by simp only [Value.image, hk, hn]; rfl⟩
  | embedded target =>
    rw [hk] at hv hready
    cases hv with
    | @embedded _ inner _ _ _ hplan hvalues =>
      simp only [Value.references, hplan] at hready
      obtain ⟨ws, h', hws⟩ := hvalues.exists_images hcopy hok inner hle hready
      have hcount : checkCount inner _ _ = .ok () := checkCount_eq_ok hvalues.length_eq
      exact ⟨_, _, by simp only [Value.image, hk, hplan, hcount, hws]; rfl⟩

theorem Value.AllCross.exists_images (hcopy : Heap.Traverses copy) (hok : Heap.Succeeds bound copy)
    (cls : String) :
    ∀ {fs : List Field} {vs : List Value} {h : Heap}, Value.AllCross h.plan? fs vs →
      h.unhandled.card ≤ bound → (∀ n ∈ Value.allReferences h.plan? fs vs, h.Ready n) →
      ∃ ws h', Value.images copy cls fs vs h = (.ok ws, h') := by
  intro fs vs h hvs hle hready
  cases hvs with
  | nil => exact ⟨[], h, by simp only [Value.images]⟩
  | @cons f fs v vs hhead htail =>
    rw [Value.allReferences] at hready
    obtain ⟨w, h₁, hw⟩ := hhead.exists_image hcopy hok cls hle
      fun n hn => hready n (List.mem_append_left _ hn)
    -- what is behind the value is still ready once the value is copied
    obtain ⟨new, ht, -⟩ := Value.image_ok hcopy hw
    rw [← ht.plan?_eq] at htail hready
    obtain ⟨ws, h₂, hws⟩ := htail.exists_images hcopy hok cls (ht.card_unhandled_le.trans hle)
      fun n hn => (hready n (List.mem_append_right _ hn)).traversed ht
    exact ⟨w :: ws, h₂, by simp only [Value.images, hw, hws]⟩

end

theorem Record.Crosses.exists_image (hcopy : Heap.Traverses copy) (hok : Heap.Succeeds bound copy)
    {r : Record} {h : Heap} (hr : r.Crosses h.plan?) (hle : h.unhandled.card ≤ bound)
    (hready : ∀ n ∈ r.references h.plan?, h.Ready n) : ∃ w h', r.image copy h = (.ok w, h') := by
  obtain ⟨plan, hplan, hvalues⟩ := hr
  simp only [Record.references, hplan] at hready
  obtain ⟨ws, h', hws⟩ := hvalues.exists_images hcopy hok r.cls hle hready
  have hcount : checkCount r.cls _ _ = .ok () := checkCount_eq_ok hvalues.length_eq
  exact ⟨_, _, by simp only [Record.image, hplan, hcount, hws]; rfl⟩

end Values

/-! ## Copies -/

namespace Heap

variable {h : Heap} {i bound : Nat}

/-- A new copy of a copyable object succeeds if the copies of what it refers to do. -/
theorem Copyable.exists_copyFresh {copy : Nat → Heap → Outcome Nat} (hi : h.Copyable i)
    (hcopy : Traverses copy) (hok : Succeeds bound copy)
    (hle : ∀ r, h.host[i]? = some r → (h.reserve i r).unhandled.card ≤ bound) :
    ∃ k h', h.copyFresh copy i = (.ok k, h') := by
  obtain ⟨r, hr, hcrosses⟩ := hi i .refl
  obtain ⟨w, h', hw⟩ := Record.Crosses.exists_image (h := h.reserve i r) hcopy hok hcrosses
    (hle r hr) fun n hn => hi.ready hr hn
  exact ⟨_, _, by simp only [copyFresh, hr, hw]; rfl⟩

/-- Where nothing has a handle left to get, whatever is ready has one. -/
theorem succeeds_copyNested (bound : Nat) : Succeeds bound (copyNested bound) := by
  induction bound with
  | zero =>
    intro n h hle hready
    unfold copyNested
    split
    next k hk => exact ⟨k, h, rfl⟩
    next hnone =>
      obtain ⟨r, hr, -⟩ := hready hnone n .refl
      -- the bound counts objects without a handle, and there would be one more
      exact absurd (card_unhandled_reserve_lt hr hnone) (by omega)
  | succ bound ih =>
    intro n h hle hready
    unfold copyNested
    split
    next k hk => exact ⟨k, h, rfl⟩
    next hnone =>
      refine (hready hnone).exists_copyFresh (traverses_copyNested bound) ih fun r hr => ?_
      have hlt := card_unhandled_reserve_lt hr hnone
      omega

/-- A new copy of an object succeeds exactly where the object and all objects reached from it
through objects without a handle are there, and each of them can cross. -/
theorem copy_succeeds_iff {force : Bool} (hnew : h.handle? i = none ∨ force = true) :
    (∃ k h', h.copy i force = (.ok k, h')) ↔
      ∀ j, ReflTransGen h.Leads i j → ∃ r, h.host[j]? = some r ∧ r.Crosses h.plan? := by
  have hfresh : h.copy i force = h.copyFresh (copyNested h.host.length) i := by
    rcases copy_cases h i force with hfresh | ⟨rfl, k, hk, -⟩
    · exact hfresh
    · simp [hk] at hnew
  rw [hfresh]
  constructor
  · rintro ⟨k, h', hcopy⟩ j hj
    obtain ⟨-, -, hc⟩ := copyFresh_ok (traverses_copyNested _) hcopy
    -- whatever has an image could cross
    obtain ⟨r, -, w, hr, -, -, himage⟩ := hc.mirrored j hj
    exact ⟨r, hc.host ▸ hr, hc.plan?_eq ▸ himage.crosses⟩
  · intro hreached
    exact Copyable.exists_copyFresh hreached (traverses_copyNested _) (succeeds_copyNested _)
      fun r _ => card_unhandled_le _

/-- The ring without the node that the part of its second node refers to. -/
def Sample.brokenRing : Heap :=
  { ring with host := ring.host.take 2 }

/-- Every node of the ring can cross. Without the third node the ring cannot be copied. -/
theorem copy_succeeds_iff_sample :
    (∀ j, ReflTransGen Sample.ring.Leads 0 j →
      ∃ r, Sample.ring.host[j]? = some r ∧ r.Crosses Sample.ring.plan?) ∧
    ¬ ∃ k h', Sample.brokenRing.copy 0 true = (.ok k, h') := by
  refine ⟨(copy_succeeds_iff (.inr rfl)).1 ⟨_, _, rfl⟩, fun hcopy => ?_⟩
  have hfirst : Sample.brokenRing.Leads 0 1 := ⟨⟨_, rfl, by decide⟩, rfl⟩
  have hsecond : Sample.brokenRing.Leads 1 2 := ⟨⟨_, rfl, by decide⟩, rfl⟩
  have hpath := (ReflTransGen.single hfirst).tail hsecond
  obtain ⟨r, hr, -⟩ := (copy_succeeds_iff (.inr rfl)).1 hcopy 2 hpath
  cases hr

end Heap

end ClassForge.Device

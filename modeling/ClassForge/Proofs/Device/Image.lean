import ClassForge.Device.Heap.Copy

/-!
# Device images

What a record has to look like on the device once it is copied, without a word on how it got there:
`plan?` gives the plans of classes and `handle?` the handles of host objects. A record that has an
image refers to no object without a handle, and keeps its image when other objects gain theirs.
-/

namespace ClassForge.Device

variable {plan? : String → Option Plan} {handle? handle'? : Nat → Option Nat}

/-! ## References -/

mutual

/-- The objects that the value of a field refers to where the field crosses, also from inside
objects held by value. A reference that crosses byte by byte is none. -/
def Value.references (plan? : String → Option Plan) (kind : FieldKind) : Value → List Nat
  | .word _ => []
  | .array _ => []
  | .object ref =>
    match kind with
    | .nested _ => ref.toList
    | _ => []
  | .embedded inner _ values =>
    match kind, plan? inner with
    | .embedded _, some plan => Value.allReferences plan? plan.fields values
    | _, _ => []

/-- The objects that the values of fields refer to, in order. -/
def Value.allReferences (plan? : String → Option Plan) : List Field → List Value → List Nat
  | f :: fs, v :: vs => v.references plan? f.kind ++ Value.allReferences plan? fs vs
  | _, _ => []

end

/-- The objects that an object refers to. -/
def Record.references (plan? : String → Option Plan) (r : Record) : List Nat :=
  match plan? r.cls with
  | some plan => Value.allReferences plan? plan.fields r.values
  | none => []

/-! ## Images -/

mutual

/-- The last argument is the device image of the value before it, for a field that crosses in the
given way. -/
inductive Value.IsImage (plan? : String → Option Plan) (handle? : Nat → Option Nat) :
    FieldKind → Value → Value → Prop
  | plain {pointer : Bool} {v : Value} : Value.IsImage plan? handle? (.plain pointer) v v
  | null {cls : String} : Value.IsImage plan? handle? (.nested cls) (.object none) (.object none)
  | object {cls : String} {n k : Nat} (hn : handle? n = some k) :
    Value.IsImage plan? handle? (.nested cls) (.object (some n)) (.object (some k))
  | embedded {cls inner : String} {onDevice : Bool} {plan : Plan} {values images : List Value}
    (hplan : plan? inner = some plan)
    (himages : Value.AreImages plan? handle? plan.fields values images) :
    Value.IsImage plan? handle? (.embedded cls) (.embedded inner onDevice values)
      (.embedded inner true images)

/-- The values of fields have images one by one, none left over. -/
inductive Value.AreImages (plan? : String → Option Plan) (handle? : Nat → Option Nat) :
    List Field → List Value → List Value → Prop
  | nil : Value.AreImages plan? handle? [] [] []
  | cons {f : Field} {fs : List Field} {v w : Value} {vs ws : List Value}
    (hhead : Value.IsImage plan? handle? f.kind v w)
    (htail : Value.AreImages plan? handle? fs vs ws) :
    Value.AreImages plan? handle? (f :: fs) (v :: vs) (w :: ws)

end

/-- `w` is the device image of `r`: an object of the same class, with the device's class pointer
and the images of its values. -/
structure Record.IsImage (plan? : String → Option Plan) (handle? : Nat → Option Nat)
    (r w : Record) : Prop where
  cls : w.cls = r.cls
  onDevice : w.onDevice = true
  values : ∃ plan, plan? r.cls = some plan ∧
    Value.AreImages plan? handle? plan.fields r.values w.values

/-! ## More handles -/

mutual

/-- An image stays one when objects gain handles. -/
theorem Value.IsImage.mono (hle : ∀ n k, handle? n = some k → handle'? n = some k) :
    ∀ {kind : FieldKind} {v w : Value}, Value.IsImage plan? handle? kind v w →
      Value.IsImage plan? handle'? kind v w
  | _, _, _, .plain => .plain
  | _, _, _, .null => .null
  | _, _, _, .object hn => .object (hle _ _ hn)
  | _, _, _, .embedded hplan himages => .embedded hplan (himages.mono hle)

theorem Value.AreImages.mono (hle : ∀ n k, handle? n = some k → handle'? n = some k) :
    ∀ {fs : List Field} {vs ws : List Value}, Value.AreImages plan? handle? fs vs ws →
      Value.AreImages plan? handle'? fs vs ws
  | _, _, _, .nil => .nil
  | _, _, _, .cons hhead htail => .cons (hhead.mono hle) (htail.mono hle)

end

theorem Record.IsImage.mono {r w : Record} (h : r.IsImage plan? handle? w)
    (hle : ∀ n k, handle? n = some k → handle'? n = some k) : r.IsImage plan? handle'? w := by
  obtain ⟨plan, hplan, himages⟩ := h.values
  exact ⟨h.cls, h.onDevice, plan, hplan, himages.mono hle⟩

/-! ## Shape -/

/-- As many fields as values, and as many images. -/
theorem Value.AreImages.length_eq :
    ∀ {fs : List Field} {vs ws : List Value}, Value.AreImages plan? handle? fs vs ws →
      fs.length = vs.length ∧ fs.length = ws.length
  | _, _, _, .nil => ⟨rfl, rfl⟩
  | _, _, _, .cons _ htail => by
    obtain ⟨hvs, hws⟩ := htail.length_eq
    exact ⟨congrArg (· + 1) hvs, congrArg (· + 1) hws⟩

/-! ## No reference is left out -/

mutual

theorem Value.IsImage.isSome_of_mem_references {n : Nat} :
    ∀ {kind : FieldKind} {v w : Value}, Value.IsImage plan? handle? kind v w →
      n ∈ v.references plan? kind → (handle? n).isSome
  | _, v, _, .plain, hn => by cases v <;> simp [Value.references] at hn
  | _, _, _, .null, hn => by simp [Value.references] at hn
  | _, _, _, .object hm, hn => by
    obtain rfl : n = _ := by simpa [Value.references] using hn
    rw [hm, Option.isSome_some]
  | _, _, _, .embedded hplan himages, hn => by
    simp only [Value.references, hplan] at hn
    exact himages.isSome_of_mem_allReferences hn

theorem Value.AreImages.isSome_of_mem_allReferences {n : Nat} :
    ∀ {fs : List Field} {vs ws : List Value}, Value.AreImages plan? handle? fs vs ws →
      n ∈ Value.allReferences plan? fs vs → (handle? n).isSome
  | _, _, _, .nil, hn => by simp [Value.allReferences] at hn
  | _, _, _, .cons hhead htail, hn => by
    rw [Value.allReferences] at hn
    rcases List.mem_append.1 hn with hhere | hbehind
    · exact hhead.isSome_of_mem_references hhere
    · exact htail.isSome_of_mem_allReferences hbehind

end

/-- All objects that a record with an image refers to have handles. -/
theorem Record.IsImage.isSome_of_mem_references {r w : Record} (h : r.IsImage plan? handle? w)
    {n : Nat} (hn : n ∈ r.references plan?) : (handle? n).isSome := by
  obtain ⟨plan, hplan, himages⟩ := h.values
  rw [Record.references, hplan] at hn
  exact himages.isSome_of_mem_allReferences hn

end ClassForge.Device

import ClassForge.Device.Heap

/-!
# Copying objects to the device

An object that has a handle is not copied again unless that is forced. Otherwise a device record is
set aside and becomes the object's handle before its fields are copied, so that references that
lead back find it; the objects that it refers to are copied the same way, never forced.

Every object copied on the way gains a handle first. So the number of host objects bounds how deep
copies nest, and the recursion goes by that bound: where it is used up, every host object has a
handle, and a reference without one leads nowhere.
-/

namespace ClassForge.Device

/-- What came of an operation, and the heaps after it, whether it failed or not. -/
abbrev Outcome (α : Type) := Except HeapError α × Heap

mutual

/-- The device image of a value. `copy` copies the object that a reference leads to. -/
def Value.image (copy : Nat → Heap → Outcome Nat) (cls : String) (f : Field) :
    Value → Heap → Outcome Value
  | .word w, h =>
    match f.kind with
    | .plain _ => (.ok (.word w), h)
    | _ => (.error (.wrongValue cls f.name), h)
  | .array ws, h =>
    match f.kind with
    | .plain _ => (.ok (.array ws), h)
    | _ => (.error (.wrongValue cls f.name), h)
  | .object ref, h =>
    match f.kind, ref with
    | .plain _, ref => (.ok (.object ref), h)
    | .nested _, none => (.ok (.object none), h)
    | .nested _, some index =>
      -- what the reference leads to crosses first, as the image holds its handle
      match copy index h with
      | (.ok handle, h) => (.ok (.object (some handle)), h)
      | (.error e, h) => (.error e, h)
    | .embedded _, _ => (.error (.wrongValue cls f.name), h)
  | .embedded inner onDevice values, h =>
    match f.kind with
    | .plain _ => (.ok (.embedded inner onDevice values), h)
    | .nested _ => (.error (.wrongValue cls f.name), h)
    | .embedded _ =>
      match h.plan? inner with
      | none => (.error (.unknownClass inner), h)
      | some plan =>
        match checkCount inner values plan with
        | .error e => (.error e, h)
        | .ok _ =>
          match Value.images copy inner plan.fields values h with
          -- the class pointer is the device's, whatever it was
          | (.ok values, h) => (.ok (.embedded inner true values), h)
          | (.error e, h) => (.error e, h)

/-- The device images of the values of a record, in order, up to the first fault. -/
def Value.images (copy : Nat → Heap → Outcome Nat) (cls : String) :
    List Field → List Value → Heap → Outcome (List Value)
  | f :: fs, v :: vs, h =>
    match v.image copy cls f h with
    | (.error e, h) => (.error e, h)
    | (.ok v, h) =>
      match Value.images copy cls fs vs h with
      | (.error e, h) => (.error e, h)
      | (.ok vs, h) => (.ok (v :: vs), h)
  | _, _, h => (.ok [], h)

end

def Record.image (copy : Nat → Heap → Outcome Nat) (r : Record) (h : Heap) : Outcome Record :=
  match h.plan? r.cls with
  | none => (.error (.unknownClass r.cls), h)
  | some plan =>
    match checkCount r.cls r.values plan with
    | .error e => (.error e, h)
    | .ok _ =>
      match Value.images copy r.cls plan.fields r.values h with
      | (.ok values, h) => (.ok { cls := r.cls, onDevice := true, values }, h)
      | (.error e, h) => (.error e, h)

/-- The heaps with a device record set aside for a host object, as its handle. -/
def Heap.reserve (h : Heap) (index : Nat) (r : Record) : Heap :=
  { h with
    device := h.device ++ [{ cls := r.cls, values := [] }]
    -- in front, where it hides an older handle
    handles := (index, h.device.length) :: h.handles }

/-- Copies a host object to a new device record. `copy` copies the objects it refers to. -/
def Heap.copyFresh (copy : Nat → Heap → Outcome Nat) (h : Heap) (index : Nat) : Outcome Nat :=
  match h.host[index]? with
  | none => (.error (.danglingReference .host index), h)
  | some r =>
    match r.image copy (h.reserve index r) with
    -- the record that was set aside stays, empty, and so does the handle
    | (.error e, h') => (.error e, h')
    | (.ok image, h') =>
      (.ok h.device.length, { h' with device := h'.device.set h.device.length image })

/-- Copies a host object unless it has a handle. At most `bound` objects have none. -/
def Heap.copyNested : (bound : Nat) → Nat → Heap → Outcome Nat
  | 0, index, h =>
    match h.handle? index with
    | some handle => (.ok handle, h)
    | none => (.error (.danglingReference .host index), h)
  | bound + 1, index, h =>
    match h.handle? index with
    | some handle => (.ok handle, h)
    | none => h.copyFresh (Heap.copyNested bound) index

/-- Copies a host object to the device and returns its handle. Where it has one already, nothing is
copied unless that is forced; a forced copy replaces the handle. -/
def Heap.copy (h : Heap) (index : Nat) (force : Bool) : Outcome Nat :=
  match h.handle? index, force with
  | some handle, false => (.ok handle, h)
  | _, _ => h.copyFresh (Heap.copyNested h.host.length) index

end ClassForge.Device

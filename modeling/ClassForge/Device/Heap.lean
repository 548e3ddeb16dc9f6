import ClassForge.Device.Plan

/-!
# Host and device heaps

A model of what the copy routines do. Objects are records on two heaps, their values in the order
of their class's plan; a reference is an index into the heap that holds the record. Each host object
may have a handle: the device record that it was copied to last.
-/

namespace ClassForge.Device

/-- The value of a field. -/
inductive Value where
  /-- A number, or a pointer as a number. -/
  | word (w : UInt64)
  | array (ws : List UInt64)
  /-- A reference to an object on the same heap. -/
  | object (ref : Option Nat)
  /-- An object by value: its class, whether its class pointer is the device's, and its values. -/
  | embedded (cls : String) (onDevice : Bool) (values : List Value)
deriving Repr

/-- An object. -/
structure Record where
  cls : String
  /-- Whether its class pointer is the device's. -/
  onDevice : Bool := false
  /-- The values of its fields, in the order of the plan. -/
  values : List Value
deriving Repr

/-- One of the two heaps. -/
inductive Side where
  | host
  | device
deriving Repr, DecidableEq

def Side.text : Side → String
  | host => "host"
  | device => "device"

/-- Why objects could not be copied. -/
inductive HeapError where
  /-- There is no plan for a class. -/
  | unknownClass (cls : String)
  /-- A reference leads to no record. -/
  | danglingReference (side : Side) (index : Nat)
  /-- A record has more or fewer values than the plan of its class has fields. -/
  | wrongFieldCount (cls : String) (found expected : Nat)
  /-- The value of a field is none that the field can have. -/
  | wrongValue (cls field : String)
deriving Repr, DecidableEq

def HeapError.message : HeapError → String
  | .unknownClass cls => s!"no mirror plan for class `{cls}`"
  | .danglingReference side index => s!"reference to missing {side.text} object #{index}"
  | .wrongFieldCount cls found expected =>
    s!"object of class `{cls}` does not match its plan at field `<{found} fields, expected {expected}>`"
  | .wrongValue cls field =>
    s!"object of class `{cls}` does not match its plan at field `{field}`"

/-- Both heaps, the plans of classes and the handles of host objects. -/
structure Heap where
  plans : List (String × Plan) := []
  host : List Record := []
  device : List Record := []
  /-- The handle of a host object; the first entry for it counts. -/
  handles : List (Nat × Nat) := []
deriving Repr

namespace Heap

/-- Empty heaps. Of two plans for one object struct the later counts. -/
def ofPlans (plans : List Plan) : Heap :=
  { plans := plans.reverse.map fun p => (p.object, p) }

def plan? (h : Heap) (cls : String) : Option Plan :=
  h.plans.lookup cls

def handle? (h : Heap) (index : Nat) : Option Nat :=
  h.handles.lookup index

def records (h : Heap) : Side → List Record
  | .host => h.host
  | .device => h.device

/-- The heaps with other records on one of them. -/
def withRecords (h : Heap) (side : Side) (records : List Record) : Heap :=
  match side with
  | .host => { h with host := records }
  | .device => { h with device := records }

/-- Places an object on the host heap, and returns its reference. -/
def allocate (h : Heap) (r : Record) : Nat × Heap :=
  (h.host.length, { h with host := h.host ++ [r] })

end Heap

/-- The values of a record with the plan of its class, if it has one and has as many fields. -/
def checkCount (cls : String) (values : List Value) (plan : Plan) : Except HeapError Unit :=
  if values.length = plan.fields.length then .ok ()
  else .error (.wrongFieldCount cls values.length plan.fields.length)

/-- Writes `new` over the value that a path leads to. All indices but the last lead through
objects held by value. -/
def writeValue? (new : Value) : List Nat → List Value → Option (List Value)
  | [], _ => none
  | [i], values => if i < values.length then some (values.set i new) else none
  | i :: path, values =>
    match values[i]? with
    | some (.embedded cls onDevice inner) =>
      (writeValue? new path inner).map fun inner => values.set i (.embedded cls onDevice inner)
    | _ => none

/-- Writes over a value of a record on one of the heaps. -/
def Heap.write? (h : Heap) (side : Side) (index : Nat) (path : List Nat) (new : Value) :
    Option Heap := do
  let r ← (h.records side)[index]?
  let values ← writeValue? new path r.values
  return h.withRecords side ((h.records side).set index { r with values })

end ClassForge.Device

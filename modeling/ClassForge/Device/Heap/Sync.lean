import ClassForge.Device.Heap

/-!
# Bringing state back from the device

An object's record is merged with a device record: fields that come back take the device's value,
pointers and constant fields stay. The merge is made in full or not at all. Then the objects that
both records refer to are brought back the same way, each with its own device record.

An object whose state is being brought back is not visited again below itself. So the number of
host objects bounds how deep visits nest, and the recursion goes by that bound: where it is used up,
every host object is being visited, and a reference to another leads nowhere.
-/

namespace ClassForge.Device

/-- A host object and the device record that its state comes from. -/
abbrev Visit := Nat × Nat

mutual

/-- Merges a host value with a device value. Returns the value and the objects to visit. -/
def Value.merge (h : Heap) (cls : String) (f : Field) :
    Value → Value → Except HeapError (Value × List Visit)
  | .word w, remote =>
    match f.kind with
    | .plain true => .ok (.word w, [])
    | .plain false => .ok (remote, [])
    | _ => .error (.wrongValue cls f.name)
  | .array ws, remote =>
    match f.kind with
    | .plain true => .ok (.array ws, [])
    | .plain false => .ok (remote, [])
    | _ => .error (.wrongValue cls f.name)
  | .object ref, remote =>
    match f.kind, remote with
    | .plain true, _ => .ok (.object ref, [])
    | .plain false, remote => .ok (remote, [])
    | .nested _, .object remoteRef =>
      match ref, remoteRef with
      -- the reference itself stays; the objects at both ends are merged later
      | some i, some j => .ok (.object ref, [(i, j)])
      | _, _ => .ok (.object ref, [])
    | _, _ => .error (.wrongValue cls f.name)
  | .embedded inner onDevice values, remote =>
    match f.kind, remote with
    | .plain true, _ => .ok (.embedded inner onDevice values, [])
    | .plain false, remote => .ok (remote, [])
    | .embedded _, .embedded remoteCls _ remotes =>
      match h.plan? inner with
      | none => .error (.unknownClass inner)
      | some plan => do
        checkCount inner values plan
        checkCount remoteCls remotes plan
        let (values, visits) ← Value.mergeAll h inner plan.fields values remotes
        return (.embedded inner onDevice values, visits)
    | _, _ => .error (.wrongValue cls f.name)

/-- Merges the values of a host record with those of a device record, in order, where the field
comes back. -/
def Value.mergeAll (h : Heap) (cls : String) :
    List Field → List Value → List Value → Except HeapError (List Value × List Visit)
  | f :: fs, v :: vs, r :: rs => do
    let (v, visits) ← if f.syncBack then v.merge h cls f r else pure (v, [])
    let (vs, more) ← Value.mergeAll h cls fs vs rs
    return (v :: vs, visits ++ more)
  | _, _, _ => .ok ([], [])

end

/-- Merges a host record with a device record. Returns the record and the objects to visit. -/
def Record.merge (h : Heap) (r remote : Record) : Except HeapError (Record × List Visit) :=
  match h.plan? r.cls with
  | none => .error (.unknownClass r.cls)
  | some plan => do
    checkCount r.cls r.values plan
    checkCount remote.cls remote.values plan
    let (values, visits) ← Value.mergeAll h r.cls plan.fields r.values remote.values
    return ({ r with values }, visits)

/-- Makes visits one after the other, up to the first that fails. -/
def visitAll (visit : Visit → Heap → Except HeapError Unit × Heap) :
    List Visit → Heap → Except HeapError Unit × Heap
  | [], h => (.ok (), h)
  | v :: vs, h =>
    match visit v h with
    | (.ok _, h) => visitAll visit vs h
    | (.error e, h) => (.error e, h)

/-- Merges an object's record and makes the visits that follow from it. -/
def Heap.syncFresh (visit : Visit → Heap → Except HeapError Unit × Heap) (h : Heap) (v : Visit) :
    Except HeapError Unit × Heap :=
  match h.host[v.1]?, h.device[v.2]? with
  | none, _ => (.error (.danglingReference .host v.1), h)
  | some _, none => (.error (.danglingReference .device v.2), h)
  | some r, some remote =>
    match r.merge h remote with
    | .error e => (.error e, h)
    -- the record is in place before its visits are made, some of which may fail
    | .ok (merged, visits) => visitAll visit visits { h with host := h.host.set v.1 merged }

/-- Brings an object's state back unless the object is on the path `above` of objects being
visited. At most `bound` host objects are not. -/
def Heap.syncNested : (bound : Nat) → List Nat → Visit → Heap → Except HeapError Unit × Heap
  | 0, above, v, h =>
    if v.1 ∈ above then (.ok (), h) else (.error (.danglingReference .host v.1), h)
  | bound + 1, above, v, h =>
    if v.1 ∈ above then (.ok (), h)
    else h.syncFresh (Heap.syncNested bound (v.1 :: above)) v

/-- Brings the state of a host object back from a device record, and that of the objects it refers
to. -/
def Heap.sync (h : Heap) (index device : Nat) : Except HeapError Unit × Heap :=
  Heap.syncNested h.host.length [] (index, device) h

end ClassForge.Device

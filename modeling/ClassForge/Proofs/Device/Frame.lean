import ClassForge.Proofs.Device.Sync
import Mathlib.Data.Finset.Basic

/-!
# What bringing state back leaves alone

Bringing state back may fail anywhere on its way, with some objects brought back and others not.
Main statement: whatever comes of it, the device and the handles stay as they are, no object is
left marked as being visited, and each host record has gone through whole merges only, none of
which touches what does not come back.

The marks need a state of their own: a `Sweep` has the heaps together with the objects whose visits
are under way, and visits on it come to the same as visits that are given the path above them.
-/

namespace ClassForge.Device

open Relation

variable {plan? : String → Option Plan}

/-! ## What does not come back -/

mutual

/-- The value of a field with a zero in place of all that may come back: at numbers in fields that
come back, also inside objects held by value. -/
def Value.fixed (plan? : String → Option Plan) (f : Field) : Value → Value
  | .embedded inner onDevice values =>
    match f.syncBack, f.kind, plan? inner with
    | true, .plain false, _ => .word 0
    | true, .embedded _, some plan =>
      .embedded inner onDevice (Value.allFixed plan? plan.fields values)
    | _, _, _ => .embedded inner onDevice values
  | v => if f.syncBack && f.kind == .plain false then .word 0 else v

/-- The values of fields, each with a zero in place of all that may come back. -/
def Value.allFixed (plan? : String → Option Plan) : List Field → List Value → List Value
  | f :: fs, v :: vs => v.fixed plan? f :: Value.allFixed plan? fs vs
  | _, vs => vs

end

/-- A record with a zero in place of all that may come back. -/
def Record.fixed (plan? : String → Option Plan) (r : Record) : Record :=
  match plan? r.cls with
  | some plan => { r with values := Value.allFixed plan? plan.fields r.values }
  | none => r

theorem Value.fixed_plain {f : Field} (hf : f.syncBack = true) (hk : f.kind = .plain false)
    (v : Value) : v.fixed plan? f = .word 0 := by
  cases v <;> simp [Value.fixed, hf, hk]

mutual

/-- A merge changes nothing but what may come back. -/
theorem Value.IsMerge.fixed_eq {f : Field} {v remote w : Value}
    (hw : Value.IsMerge plan? f v remote w) : w.fixed plan? f = v.fixed plan? f := by
  cases hw with
  | constant | pointer | object => rfl
  | plain hf hk => rw [Value.fixed_plain hf hk, Value.fixed_plain hf hk]
  | embedded hf hk hplan hmerges => simp only [Value.fixed, hf, hk, hplan, hmerges.allFixed_eq]

theorem Value.AreMerges.allFixed_eq {fs : List Field} {vs remotes ws : List Value}
    (hws : Value.AreMerges plan? fs vs remotes ws) :
    Value.allFixed plan? fs ws = Value.allFixed plan? fs vs := by
  cases hws with
  | nil => rfl
  | cons hhead htail => rw [Value.allFixed, Value.allFixed, hhead.fixed_eq, htail.allFixed_eq]

end

theorem Record.IsMerge.fixed_eq {r remote w : Record} (hw : r.IsMerge plan? remote w) :
    w.fixed plan? = r.fixed plan? := by
  obtain ⟨plan, hplan, hmerges⟩ := hw.values
  have hvalues := hmerges.allFixed_eq
  simp only [Record.fixed, hw.cls, hplan, hvalues, hw.onDevice]

theorem Heap.MergesTo.fixed_eq {h : Heap} {r w : Record} (hw : ReflTransGen h.MergesTo r w) :
    w.fixed h.plan? = r.fixed h.plan? := by
  induction hw with
  | refl => rfl
  | tail _ hlast ih =>
    obtain ⟨_, _, hmerge⟩ := hlast
    rw [hmerge.fixed_eq, ih]

theorem Record.onDevice_fixed (r : Record) : (r.fixed plan?).onDevice = r.onDevice := by
  unfold Record.fixed
  split <;> rfl

/-! ## Visits under way -/

/-- Both heaps, with the objects whose state is being brought back. -/
structure Sweep where
  heap : Heap
  busy : Finset Nat

namespace Sweep

/-- Makes visits one after the other, up to the first that fails. -/
def visitAll (visit : Visit → Sweep → Except HeapError Unit × Sweep) :
    List Visit → Sweep → Except HeapError Unit × Sweep
  | [], s => (.ok (), s)
  | v :: vs, s =>
    match visit v s with
    | (.ok _, s) => visitAll visit vs s
    | (.error e, s) => (.error e, s)

/-- Merges an object's record and makes the visits that follow from it. -/
def syncFresh (visit : Visit → Sweep → Except HeapError Unit × Sweep) (s : Sweep) (v : Visit) :
    Except HeapError Unit × Sweep :=
  match s.heap.host[v.1]?, s.heap.device[v.2]? with
  | none, _ => (.error (.danglingReference .host v.1), s)
  | some _, none => (.error (.danglingReference .device v.2), s)
  | some r, some remote =>
    match r.merge s.heap remote with
    | .error e => (.error e, s)
    | .ok (merged, visits) =>
      visitAll visit visits { s with heap := { s.heap with host := s.heap.host.set v.1 merged } }

/-- Brings an object's state back unless the object is marked. The mark that it gets is taken away
when all visits below it are over, whether one of them failed or not. -/
def syncNested : (bound : Nat) → Visit → Sweep → Except HeapError Unit × Sweep
  | 0, v, s =>
    if v.1 ∈ s.busy then (.ok (), s) else (.error (.danglingReference .host v.1), s)
  | bound + 1, v, s =>
    if v.1 ∈ s.busy then (.ok (), s)
    else
      let (result, s) := syncFresh (syncNested bound) { s with busy := insert v.1 s.busy } v
      (result, { s with busy := s.busy.erase v.1 })

/-- Brings the state of a host object back from a device record, and that of the objects it refers
to. -/
def sync (s : Sweep) (index device : Nat) : Except HeapError Unit × Sweep :=
  syncNested s.heap.host.length (index, device) s

/-- On a sweep with the marks `busy` the visits `visit` come to the same as the visits `visit'` come
to on its heaps, and they leave the marks as they are. -/
def Follows (busy : Finset Nat) (visit : Visit → Sweep → Except HeapError Unit × Sweep)
    (visit' : Visit → Heap → Except HeapError Unit × Heap) : Prop :=
  ∀ v h, visit v ⟨h, busy⟩ = ((visit' v h).1, ⟨(visit' v h).2, busy⟩)

section Follows

variable {busy : Finset Nat} {visit : Visit → Sweep → Except HeapError Unit × Sweep}
  {visit' : Visit → Heap → Except HeapError Unit × Heap}

theorem Follows.visitAll (hvisit : Follows busy visit visit') (vs : List Visit) (h : Heap) :
    Sweep.visitAll visit vs ⟨h, busy⟩
      = ((Device.visitAll visit' vs h).1, ⟨(Device.visitAll visit' vs h).2, busy⟩) := by
  induction vs generalizing h with
  | nil => rfl
  | cons v vs ih =>
    rw [Sweep.visitAll, Device.visitAll, hvisit v h]
    rcases visit' v h with ⟨_ | _, h₁⟩
    · rfl
    · exact ih h₁

theorem Follows.syncFresh (hvisit : Follows busy visit visit') (v : Visit) (h : Heap) :
    Sweep.syncFresh visit ⟨h, busy⟩ v
      = ((h.syncFresh visit' v).1, ⟨(h.syncFresh visit' v).2, busy⟩) := by
  unfold Sweep.syncFresh Heap.syncFresh
  dsimp only
  rcases h.host[v.1]? with _ | r
  · rfl
  rcases h.device[v.2]? with _ | remote
  · rfl
  dsimp only
  rcases r.merge h remote with _ | ⟨merged, visits⟩
  · rfl
  · exact hvisit.visitAll visits _

/-- The marks are the objects on the path above, and the mark of a visit goes with it. -/
theorem follows_syncNested (bound : Nat) :
    ∀ (above : List Nat) (busy : Finset Nat), (∀ n, n ∈ busy ↔ n ∈ above) →
      Follows busy (syncNested bound) (Heap.syncNested bound above) := by
  induction bound with
  | zero =>
    intro above busy hbusy v h
    unfold syncNested Heap.syncNested
    simp only [hbusy]
    split <;> rfl
  | succ bound ih =>
    intro above busy hbusy v h
    unfold syncNested Heap.syncNested
    simp only [hbusy]
    split
    next => rfl
    next hfree =>
      -- the set and the list of what is in progress grow together
      have hmarked : ∀ n, n ∈ insert v.1 busy ↔ n ∈ v.1 :: above := by
        intro n
        rw [Finset.mem_insert, List.mem_cons, hbusy]
      rw [(ih (v.1 :: above) (insert v.1 busy) hmarked).syncFresh v h]
      have hunmarked : (insert v.1 busy).erase v.1 = busy :=
        Finset.erase_insert fun hmem => hfree ((hbusy v.1).1 hmem)
      simp only [hunmarked]

end Follows

/-- Whatever comes of a visit, its mark is gone, only host records change, and only by whole
merges. -/
theorem synced_sync (s : Sweep) (i d : Nat) :
    (s.sync i d).2.busy = s.busy ∧ s.heap.Synced (s.sync i d).2.heap ∧
      (s.busy = ∅ → ((s.sync i d).1, (s.sync i d).2.heap) = s.heap.sync i d) := by
  have hrun := follows_syncNested s.heap.host.length s.busy.toList s.busy
    (fun _ => Finset.mem_toList.symm) (i, d) s.heap
  refine ⟨?_, ?_, fun hfree => ?_⟩
  · rw [sync, hrun]
  · rw [sync, hrun]
    exact Heap.synced_syncNested _ _ _ _
  · rw [sync, hrun, Heap.sync, hfree, Finset.toList_empty]

/-- Whatever comes of bringing an object's state back, the heaps differ in host records only, there
are as many of those as before, and no mark is gained or lost. Each host record has gone through
some number of whole merges with device records, and is what it was but for numbers in fields that
come back. -/
theorem sync_frame (s : Sweep) (i d : Nat) :
    (s.sync i d).2.busy = s.busy ∧
    (s.sync i d).2.heap.plans = s.heap.plans ∧
    (s.sync i d).2.heap.device = s.heap.device ∧
    (s.sync i d).2.heap.handles = s.heap.handles ∧
    (s.sync i d).2.heap.host.length = s.heap.host.length ∧
    (∀ (j : Nat) (r : Record), s.heap.host[j]? = some r →
      ∃ w, (s.sync i d).2.heap.host[j]? = some w ∧ ReflTransGen s.heap.MergesTo r w ∧
        w.cls = r.cls ∧ w.onDevice = r.onDevice ∧
        w.fixed s.heap.plan? = r.fixed s.heap.plan?) ∧
    (s.busy = ∅ → ((s.sync i d).1, (s.sync i d).2.heap) = s.heap.sync i d) := by
  obtain ⟨hbusy, hs, hfree⟩ := synced_sync s i d
  refine ⟨hbusy, hs.plans, hs.device, hs.handles, hs.length, fun j r hr => ?_, hfree⟩
  obtain ⟨w, hw, hmerges⟩ := hs.host j r hr
  have hfixed := Heap.MergesTo.fixed_eq hmerges
  have honDevice := congrArg Record.onDevice hfixed
  rw [Record.onDevice_fixed, Record.onDevice_fixed] at honDevice
  exact ⟨w, hw, hmerges, Heap.MergesTo.cls hmerges, honDevice, hfixed⟩

/-- Three nodes that refer to each other, and device records of two of them. The device record of
the second refers to one that is not there. -/
def Sample.severed : Heap :=
  { Heap.Sample.changed with
    device := [Heap.Sample.node 20 (some 1) (some 5), Heap.Sample.node 10 (some 0) none] }

/-- Bringing the first node back brings the second back and fails at the third. -/
theorem sync_frame_sample : ∃ e s', (⟨Sample.severed, ∅⟩ : Sweep).sync 0 1 = (.error e, s') ∧
    s'.busy = ∅ ∧ s'.heap.host[1]? = some (Heap.Sample.node 20 (some 0) (some 2)) ∧
    ReflTransGen Sample.severed.MergesTo (Heap.Sample.node 2 (some 0) (some 2))
      (Heap.Sample.node 20 (some 0) (some 2)) := by
  obtain ⟨e, s', hrun, hhost⟩ : ∃ e s', (⟨Sample.severed, ∅⟩ : Sweep).sync 0 1 = (.error e, s') ∧
      s'.heap.host[1]? = some (Heap.Sample.node 20 (some 0) (some 2)) := ⟨_, _, rfl, rfl⟩
  obtain ⟨hbusy, -, -, -, -, hrecords, -⟩ := sync_frame ⟨Sample.severed, ∅⟩ 0 1
  obtain ⟨w, hw, hmerges, -⟩ := hrecords 1 _ rfl
  rw [hrun] at hbusy hw
  obtain rfl := Option.some.inj (hhost.symm.trans hw)
  exact ⟨e, s', hrun, hbusy, hhost, hmerges⟩

end Sweep

end ClassForge.Device

import ClassForge.Device.Heap.Sync
import ClassForge.Proofs.Device.Traversal
import ClassForge.Proofs.Except

/-!
# Merged records

What bringing state back makes of one record, without a word on how it gets there: `plan?` gives the
plans of classes. A record merged with a device record takes the device's value at the fields that
come back and keeps all else; merging it with the same device record once more changes nothing.
-/

namespace ClassForge.Device

variable {plan? : String → Option Plan}

/-! ## Merges -/

mutual

/-- The last argument is what the value before the device's becomes in a field. -/
inductive Value.IsMerge (plan? : String → Option Plan) : Field → Value → Value → Value → Prop
  | constant {f : Field} {v remote : Value} (hf : f.syncBack = false) :
    Value.IsMerge plan? f v remote v
  | pointer {f : Field} {v remote : Value} (hk : f.kind = .plain true) :
    Value.IsMerge plan? f v remote v
  | plain {f : Field} {v remote : Value} (hf : f.syncBack = true) (hk : f.kind = .plain false) :
    Value.IsMerge plan? f v remote remote
  | object {f : Field} {cls : String} {v remote : Value} (hk : f.kind = .nested cls) :
    Value.IsMerge plan? f v remote v
  | embedded {f : Field} {cls inner remoteCls : String} {onDevice remoteOnDevice : Bool}
    {plan : Plan} {values remotes merged : List Value} (hf : f.syncBack = true)
    (hk : f.kind = .embedded cls) (hplan : plan? inner = some plan)
    (hmerges : Value.AreMerges plan? plan.fields values remotes merged) :
    Value.IsMerge plan? f (.embedded inner onDevice values)
      (.embedded remoteCls remoteOnDevice remotes) (.embedded inner onDevice merged)

/-- Values are merged with those of a device record one by one, none left over. -/
inductive Value.AreMerges (plan? : String → Option Plan) :
    List Field → List Value → List Value → List Value → Prop
  | nil : Value.AreMerges plan? [] [] [] []
  | cons {f : Field} {fs : List Field} {v remote w : Value} {vs remotes ws : List Value}
    (hhead : Value.IsMerge plan? f v remote w) (htail : Value.AreMerges plan? fs vs remotes ws) :
    Value.AreMerges plan? (f :: fs) (v :: vs) (remote :: remotes) (w :: ws)

end

/-- `w` is the host record `r` with the state of the device record `remote`. -/
structure Record.IsMerge (plan? : String → Option Plan) (r remote w : Record) : Prop where
  cls : w.cls = r.cls
  onDevice : w.onDevice = r.onDevice
  values : ∃ plan, plan? r.cls = some plan ∧
    Value.AreMerges plan? plan.fields r.values remote.values w.values

/-! ## Pairs of references -/

mutual

/-- The objects that a host value and a device value refer to at the same place, in a field that
comes back. Inside objects held by value only fields that come back count. -/
def Value.pairs (plan? : String → Option Plan) (kind : FieldKind) : Value → Value → List Visit
  | .object (some n), .object (some m) =>
    match kind with
    | .nested _ => [(n, m)]
    | _ => []
  | .embedded inner _ values, .embedded _ _ remotes =>
    match kind, plan? inner with
    | .embedded _, some plan => Value.allPairs plan? plan.fields values remotes
    | _, _ => []
  | _, _ => []

/-- The objects that both refer to in the fields that come back, in order. -/
def Value.allPairs (plan? : String → Option Plan) :
    List Field → List Value → List Value → List Visit
  | f :: fs, v :: vs, remote :: remotes =>
    (if f.syncBack then v.pairs plan? f.kind remote else [])
      ++ Value.allPairs plan? fs vs remotes
  | _, _, _ => []

end

/-- The objects that a host record and a device record refer to at the same place. -/
def Record.pairs (plan? : String → Option Plan) (r remote : Record) : List Visit :=
  match plan? r.cls with
  | some plan => Value.allPairs plan? plan.fields r.values remote.values
  | none => []

/-! ## What is merged -/

section Merge

variable {h : Heap}

/-- What is held by value is merged with what is held by value, by the plan of its class. -/
theorem Value.merge_embedded {cls target : String} {f : Field} {v remote w : Value}
    {visits : List Visit} (hk : f.kind = .embedded target)
    (hw : v.merge h cls f remote = .ok (w, visits)) :
    ∃ inner onDevice values remoteCls remoteOnDevice remotes plan merged,
      v = .embedded inner onDevice values ∧
      remote = .embedded remoteCls remoteOnDevice remotes ∧ h.plan? inner = some plan ∧
      plan.fields.length = values.length ∧ plan.fields.length = remotes.length ∧
      Value.mergeAll h inner plan.fields values remotes = .ok (merged, visits) ∧
      w = .embedded inner onDevice merged := by
  cases v with
  | word x => simp [Value.merge, hk] at hw
  | array xs => simp [Value.merge, hk] at hw
  | object ref => simp [Value.merge, hk] at hw
  | embedded inner onDevice values =>
    cases remote with
    | word x => simp [Value.merge, hk] at hw
    | array xs => simp [Value.merge, hk] at hw
    | object ref => simp [Value.merge, hk] at hw
    | embedded remoteCls remoteOnDevice remotes =>
      simp only [Value.merge, hk] at hw
      cases hplan : h.plan? inner with
      | none => simp [hplan] at hw
      | some plan =>
        simp only [hplan, bind_eq_ok, pure_eq_ok] at hw
        obtain ⟨_, hvalues, _, hremotes, ⟨merged, _⟩, hmerged, heq⟩ := hw
        obtain ⟨rfl, rfl⟩ := Prod.mk.inj heq
        exact ⟨inner, onDevice, values, remoteCls, remoteOnDevice, remotes, plan, merged, rfl, rfl,
          hplan, checkCount_ok hvalues, checkCount_ok hremotes, hmerged, rfl⟩

/-- What refers to an object is merged with what refers to an object, and stays. -/
theorem Value.merge_nested {cls target : String} {f : Field} {v remote w : Value}
    {visits : List Visit} (hk : f.kind = .nested target)
    (hw : v.merge h cls f remote = .ok (w, visits)) :
    w = v ∧ visits = v.pairs h.plan? f.kind remote := by
  cases v with
  | word x => simp [Value.merge, hk] at hw
  | array xs => simp [Value.merge, hk] at hw
  | embedded inner onDevice values => cases remote <;> simp [Value.merge, hk] at hw
  | object ref =>
    cases remote with
    | word x => simp [Value.merge, hk] at hw
    | array xs => simp [Value.merge, hk] at hw
    | embedded remoteCls remoteOnDevice remotes => simp [Value.merge, hk] at hw
    | object remoteRef =>
      cases ref <;> cases remoteRef <;> simp only [Value.merge, hk] at hw <;> cases hw <;>
        exact ⟨rfl, by simp only [Value.pairs, hk]⟩

/-- Byte by byte a value is kept where it is a pointer and replaced where it is none. -/
theorem Value.merge_plain {cls : String} {f : Field} {pointer : Bool} (hk : f.kind = .plain pointer)
    (v remote : Value) :
    v.merge h cls f remote = .ok (if pointer then v else remote, []) := by
  cases v <;> cases pointer <;> simp [Value.merge, hk]

theorem Value.pairs_plain {pointer : Bool} (v remote : Value) :
    v.pairs plan? (.plain pointer) remote = [] := by
  unfold Value.pairs
  split <;> rfl

/-- A field that comes back is merged; another keeps its value, and nothing is visited for it. -/
theorem Value.mergeAll_cons (cls : String) (f : Field) (fs : List Field) (v remote : Value)
    (vs remotes : List Value) :
    Value.mergeAll h cls (f :: fs) (v :: vs) (remote :: remotes) = do
      let head ← (if f.syncBack then v.merge h cls f remote else .ok (v, []))
      let tail ← Value.mergeAll h cls fs vs remotes
      return (head.1 :: tail.1, head.2 ++ tail.2) := by
  rw [Value.mergeAll]
  split <;> rfl

mutual

/-- Merging a value gives its merge, and the visits are the pairs of references. -/
theorem Value.merge_ok {cls : String} {f : Field} {v remote w : Value} {visits : List Visit}
    (hf : f.syncBack = true) (hw : v.merge h cls f remote = .ok (w, visits)) :
    v.IsMerge h.plan? f remote w ∧ visits = v.pairs h.plan? f.kind remote := by
  cases hk : f.kind with
  | plain pointer =>
    rw [Value.merge_plain hk] at hw
    obtain ⟨rfl, rfl⟩ := Prod.mk.inj (Except.ok.inj hw)
    refine ⟨?_, (Value.pairs_plain v remote).symm⟩
    cases pointer with
    | true => exact .pointer hk
    | false => exact .plain hf hk
  | nested target =>
    obtain ⟨rfl, hvisits⟩ := Value.merge_nested hk hw
    exact ⟨.object hk, hk ▸ hvisits⟩
  | embedded target =>
    obtain ⟨inner, onDevice, values, remoteCls, remoteOnDevice, remotes, plan, merged, hv, rfl,
      hplan, hvalues, hremotes, hmerged, rfl⟩ := Value.merge_embedded hk hw
    obtain ⟨hmerges, rfl⟩ := Value.mergeAll_ok hvalues hremotes hmerged
    -- `hv` stays up to here, for the measure of the call
    subst hv
    exact ⟨.embedded hf hk hplan hmerges, by simp only [Value.pairs, hplan]⟩
termination_by sizeOf v
decreasing_by simp only [hv, Value.embedded.sizeOf_spec]; omega

theorem Value.mergeAll_ok {cls : String} {fs : List Field} {vs remotes ws : List Value}
    {visits : List Visit} (hvs : fs.length = vs.length) (hremotes : fs.length = remotes.length)
    (hws : Value.mergeAll h cls fs vs remotes = .ok (ws, visits)) :
    Value.AreMerges h.plan? fs vs remotes ws ∧ visits = Value.allPairs h.plan? fs vs remotes := by
  match fs, vs, remotes with
  | [], [], [] =>
    rw [Value.mergeAll] at hws
    · cases hws
      exact ⟨.nil, rfl⟩
    · simp
  | f :: fs, v :: vs, remote :: remotes =>
    simp only [Value.mergeAll_cons, bind_eq_ok, pure_eq_ok] at hws
    obtain ⟨⟨w, first⟩, hhead, ⟨rest, more⟩, htail, heq⟩ := hws
    obtain ⟨rfl, rfl⟩ := Prod.mk.inj heq
    obtain ⟨hmerges, rfl⟩ := Value.mergeAll_ok (Nat.succ.inj hvs) (Nat.succ.inj hremotes) htail
    rw [Value.allPairs]
    -- constants are passed over, with no look at either value
    by_cases hf : f.syncBack = true
    · rw [if_pos hf] at hhead ⊢
      obtain ⟨hmerge, rfl⟩ := Value.merge_ok hf hhead
      exact ⟨.cons hmerge hmerges, rfl⟩
    · rw [if_neg hf] at hhead ⊢
      obtain ⟨rfl, rfl⟩ := Prod.mk.inj (Except.ok.inj hhead)
      exact ⟨.cons (.constant (eq_false_of_ne_true hf)) hmerges, rfl⟩
termination_by sizeOf vs

end

/-- Merging a record gives its merge, and the visits are the pairs of references. -/
theorem Record.merge_ok {r remote w : Record} {visits : List Visit}
    (hw : r.merge h remote = .ok (w, visits)) :
    r.IsMerge h.plan? remote w ∧ visits = r.pairs h.plan? remote := by
  unfold Record.merge at hw
  cases hplan : h.plan? r.cls with
  | none => simp [hplan] at hw
  | some plan =>
    simp only [hplan, bind_eq_ok] at hw
    obtain ⟨_, hvalues, _, hremotes, ⟨merged, _⟩, hmerged, hw⟩ := hw
    obtain ⟨rfl, rfl⟩ := Prod.mk.inj (pure_eq_ok.1 hw)
    obtain ⟨hmerges, rfl⟩ :=
      Value.mergeAll_ok (checkCount_ok hvalues) (checkCount_ok hremotes) hmerged
    exact ⟨⟨rfl, rfl, plan, hplan, hmerges⟩, by simp only [Record.pairs, hplan]⟩

end Merge

/-! ## Merging once more -/

mutual

/-- A merge stays as it is when it is merged with the same value again. -/
theorem Value.IsMerge.again {f : Field} {v remote w x : Value}
    (hw : Value.IsMerge plan? f v remote w) (hx : Value.IsMerge plan? f w remote x) : x = w := by
  cases hx with
  | constant | pointer | object => rfl
  | plain hf hk =>
    -- the field is the same, so the first merge went by the same rule
    cases hw with
    | plain => rfl
    | constant hf' => rw [hf] at hf'; cases hf'
    | pointer hk' => rw [hk] at hk'; cases hk'
    | object hk' => rw [hk] at hk'; cases hk'
    | embedded _ hk' => rw [hk] at hk'; cases hk'
  | embedded hf hk hplan hmerges =>
    cases hw with
    | constant hf' => rw [hf] at hf'; cases hf'
    | pointer hk' => rw [hk] at hk'; cases hk'
    | plain _ hk' => rw [hk] at hk'; cases hk'
    | object hk' => rw [hk] at hk'; cases hk'
    | embedded _ _ hplan' hmerges' =>
      obtain rfl := Option.some.inj (hplan.symm.trans hplan')
      rw [hmerges'.again hmerges]

theorem Value.AreMerges.again {fs : List Field} {vs remotes ws xs : List Value}
    (hws : Value.AreMerges plan? fs vs remotes ws)
    (hxs : Value.AreMerges plan? fs ws remotes xs) : xs = ws := by
  cases hws with
  | nil => cases hxs; rfl
  | cons hhead htail =>
    cases hxs with
    | cons hhead' htail' => rw [hhead.again hhead', htail.again htail']

end

mutual

/-- A merge refers to what the value before referred to. -/
theorem Value.IsMerge.pairs_eq {f : Field} {v remote w : Value}
    (hw : Value.IsMerge plan? f v remote w) :
    w.pairs plan? f.kind remote = v.pairs plan? f.kind remote := by
  cases hw with
  | constant | pointer | object => rfl
  | plain _ hk => rw [hk, Value.pairs_plain, Value.pairs_plain]
  | embedded _ hk hplan hmerges => simp only [Value.pairs, hk, hplan, hmerges.allPairs_eq]

theorem Value.AreMerges.allPairs_eq {fs : List Field} {vs remotes ws : List Value}
    (hws : Value.AreMerges plan? fs vs remotes ws) :
    Value.allPairs plan? fs ws remotes = Value.allPairs plan? fs vs remotes := by
  cases hws with
  | nil => rfl
  | cons hhead htail => rw [Value.allPairs, Value.allPairs, hhead.pairs_eq, htail.allPairs_eq]

end

theorem Record.IsMerge.again {r remote w x : Record} (hw : r.IsMerge plan? remote w)
    (hx : w.IsMerge plan? remote x) : x = w := by
  obtain ⟨plan, hplan, hmerges⟩ := hw.values
  obtain ⟨plan', hplan', hmerges'⟩ := hx.values
  rw [hw.cls, hplan] at hplan'
  obtain rfl := Option.some.inj hplan'
  have hvalues := hmerges.again hmerges'
  cases w
  cases x
  rw [Record.mk.injEq]
  exact ⟨hx.cls, hx.onDevice, hvalues⟩

theorem Record.IsMerge.pairs_eq {r remote w : Record} (hw : r.IsMerge plan? remote w) :
    w.pairs plan? remote = r.pairs plan? remote := by
  obtain ⟨plan, hplan, hmerges⟩ := hw.values
  simp only [Record.pairs, hw.cls, hplan, hmerges.allPairs_eq]

end ClassForge.Device

import ClassForge.Class.Resolve
import ClassForge.Proofs.Device.Access
import ClassForge.Proofs.Device.Expansion
import ClassForge.Proofs.Device.Merge

/-!
# Actions of bringing state back

What the routine that is generated for a class and the merge of two records do alike: a list of
actions, each at a field that is reached through objects held by value. Main statement: the routine
has one statement for each action, and the merge carries out the actions one after the other.
-/

namespace ClassForge.Device

open C ClassForge.Class

/-! ## Actions -/

/-- What is done to bring a field back. -/
inductive SyncAction where
  /-- The bytes of the field are copied. -/
  | copy (a : Access)
  /-- The state of the objects that the field refers to is brought back. -/
  | descend (a : Access)
deriving Repr, DecidableEq

/-- The same action seen from the object that holds the object by value. -/
def SyncAction.within (p : Place) : SyncAction → SyncAction
  | .copy a => .copy (a.within p)
  | .descend a => .descend (a.within p)

/-- The actions for the fields of a plan from number `n` on: none for a field that does not come
back and none for a pointer; those of its class's plan, seen from outside, for an object held by
value. -/
inductive Catalog.SyncActions (cat : Catalog) : Nat → List Field → List SyncAction → Prop
  | nil {n : Nat} : cat.SyncActions n [] []
  | constant {n : Nat} {f : Field} {fs : List Field} {actions : List SyncAction}
    (hf : f.syncBack = false) (htail : cat.SyncActions (n + 1) fs actions) :
    cat.SyncActions n (f :: fs) actions
  | pointer {n : Nat} {f : Field} {fs : List Field} {actions : List SyncAction}
    (hf : f.syncBack = true) (hk : f.kind = .plain true)
    (htail : cat.SyncActions (n + 1) fs actions) : cat.SyncActions n (f :: fs) actions
  | copy {n : Nat} {f : Field} {fs : List Field} {actions : List SyncAction}
    (hf : f.syncBack = true) (hk : f.kind = .plain false)
    (htail : cat.SyncActions (n + 1) fs actions) :
    cat.SyncActions n (f :: fs) (.copy { place := ⟨n, f⟩ } :: actions)
  | descend {n : Nat} {f : Field} {fs : List Field} {actions : List SyncAction} {cls : String}
    (hf : f.syncBack = true) (hk : f.kind = .nested cls)
    (htail : cat.SyncActions (n + 1) fs actions) :
    cat.SyncActions n (f :: fs) (.descend { place := ⟨n, f⟩ } :: actions)
  | embedded {n : Nat} {f : Field} {fs : List Field} {actions inner : List SyncAction}
    {cls : String} {s : StructType} (hf : f.syncBack = true) (hk : f.kind = .embedded cls)
    (hs : cat.layout? cls = some s) (hinner : cat.SyncActions 0 (cat.plan s).fields inner)
    (htail : cat.SyncActions (n + 1) fs actions) :
    cat.SyncActions n (f :: fs) (inner.map (.within ⟨n, f⟩) ++ actions)

/-- The fields decide the actions. -/
theorem Catalog.SyncActions.unique {cat : Catalog} {n : Nat} {fs : List Field}
    {actions actions' : List SyncAction} (h : cat.SyncActions n fs actions)
    (h' : cat.SyncActions n fs actions') : actions = actions' := by
  -- a field's qualifier and kind fix the rule, so a second derivation ends with the same one
  induction h generalizing actions' with
  | nil => cases h'; rfl
  | constant hf _ ih =>
    cases h' with
    | constant _ htail => exact ih htail
    | pointer hf' | copy hf' | descend hf' | embedded hf' => rw [hf] at hf'; cases hf'
  | pointer hf hk _ ih =>
    cases h' with
    | constant hf' => rw [hf] at hf'; cases hf'
    | pointer _ _ htail => exact ih htail
    | copy _ hk' | descend _ hk' | embedded _ hk' => rw [hk] at hk'; cases hk'
  | copy hf hk _ ih =>
    cases h' with
    | constant hf' => rw [hf] at hf'; cases hf'
    | copy _ _ htail => rw [ih htail]
    | pointer _ hk' | descend _ hk' | embedded _ hk' => rw [hk] at hk'; cases hk'
  | descend hf hk _ ih =>
    cases h' with
    | constant hf' => rw [hf] at hf'; cases hf'
    | descend _ _ htail => rw [ih htail]
    | pointer _ hk' | copy _ hk' | embedded _ hk' => rw [hk] at hk'; cases hk'
  | embedded hf hk hs _ _ ihInner ihTail =>
    cases h' with
    | constant hf' => rw [hf] at hf'; cases hf'
    | pointer _ hk' | copy _ hk' | descend _ hk' => rw [hk] at hk'; cases hk'
    | embedded _ hk' hs' hinner htail =>
      -- the embedded record is laid out in one way
      obtain rfl := FieldKind.embedded.inj (hk.symm.trans hk')
      obtain rfl := Option.some.inj (hs.symm.trans hs')
      rw [ihInner hinner, ihTail htail]

/-! ## Their statements -/

/-- The statement of an action: bytes are copied, or the state of an object is brought back where
host and device both have one. -/
def SyncAction.code (host device : String) : SyncAction → List Code
  | .copy a =>
    [.line ("memcpy((void*) " ++ a.address host ++ ", (const void*) " ++ a.address device
      ++ ", sizeof(" ++ a.member host ++ "));")]
  | .descend a =>
    [.line ("if (" ++ a.member host ++ " != NULL && " ++ a.member device ++ " != NULL)"),
     .block
      [.line ("myriad_decudafy((void*) " ++ a.member host ++ ", (void*) " ++ a.member device
        ++ ");")]]

theorem SyncAction.code_within (host device : String) (p : Place) (action : SyncAction) :
    (action.within p).code host device =
      action.code (Device.address host p.field) (Device.address device p.field) := by
  cases action <;> rfl

/-- Fields that can be expanded have actions, and the statements for the expansion are those of the
actions. -/
theorem Catalog.Expands.exists_syncActions {cat : Catalog} {fs : List Field} {es : List Expanded}
    (h : cat.Expands (·.syncBack) fs es) : ∀ n, ∃ actions, cat.SyncActions n fs actions ∧
      ∀ host device, Expanded.allFromDevice host device es =
        actions.flatMap (·.code host device) := by
  induction h with
  | nil => exact fun n => ⟨[], .nil, fun _ _ => rfl⟩
  -- a field that is not copied back still counts in the numbering of those behind it
  | @dropped f fs es hf _ ih =>
    intro n
    obtain ⟨actions, hactions, hcode⟩ := ih (n + 1)
    exact ⟨actions, .constant hf hactions, hcode⟩
  | @leaf f fs es hf hk _ ih =>
    intro n
    obtain ⟨actions, hactions, hcode⟩ := ih (n + 1)
    cases hkind : f.kind with
    | plain pointer =>
      cases pointer with
      | true =>
        refine ⟨actions, .pointer hf hkind hactions, fun host device => ?_⟩
        simp only [Expanded.allFromDevice, Expanded.fromDevice, hkind, hcode, List.nil_append]
      | false =>
        refine ⟨.copy { place := ⟨n, f⟩ } :: actions, .copy hf hkind hactions,
          fun host device => ?_⟩
        simp only [Expanded.allFromDevice, Expanded.fromDevice, hkind, hcode, List.flatMap_cons]
        rfl
    | nested cls =>
      refine ⟨.descend { place := ⟨n, f⟩ } :: actions, .descend hf hkind hactions,
        fun host device => ?_⟩
      simp only [Expanded.allFromDevice, Expanded.fromDevice, hkind, hcode, List.flatMap_cons]
      rfl
    | embedded cls => exact absurd hkind (hk cls)
  | @embedded f fs cls s inner es hf hk hs _ _ ihInner ihTail =>
    intro n
    -- fields of the embedded record are numbered from the start
    obtain ⟨actionsInner, hinner, hcodeInner⟩ := ihInner 0
    obtain ⟨actions, hactions, hcode⟩ := ihTail (n + 1)
    refine ⟨_, .embedded hf hk hs hinner hactions, fun host device => ?_⟩
    simp only [Expanded.allFromDevice, Expanded.fromDevice, hcode, hcodeInner,
      List.flatMap_append, List.flatMap_map, SyncAction.code_within]

/-! ## Their effect -/

/-- What an action writes over the values of a host record: a copy writes the value of the device
record at the same place, and nothing else does. -/
def SyncAction.overwrite (remotes : List Value) (values : List Value) :
    SyncAction → Option (List Value)
  | .copy a => (valueAt? a.indices remotes).bind fun remote => writeValue? remote a.indices values
  | .descend _ => some values

/-- The objects whose state an action brings back: those that both records refer to. -/
def SyncAction.visit? (remotes values : List Value) : SyncAction → Option Visit
  | .copy _ => none
  | .descend a =>
    match valueAt? a.indices values, valueAt? a.indices remotes with
    | some (.object (some n)), some (.object (some m)) => some (n, m)
    | _, _ => none

section Within

variable {p : Place} {cls remoteCls : String} {onDevice remoteOnDevice : Bool}
  {values remotes inner remoteInner : List Value}

theorem SyncAction.overwrite_within (action : SyncAction)
    (hv : values[p.index]? = some (.embedded cls onDevice inner))
    (hremote : remotes[p.index]? = some (.embedded remoteCls remoteOnDevice remoteInner)) :
    (action.within p).overwrite remotes values =
      (action.overwrite remoteInner inner).map fun inner =>
        values.set p.index (.embedded cls onDevice inner) := by
  cases action with
  | copy a =>
    simp only [within, overwrite, valueAt?_within hremote, writeValue?_within _ hv,
      Option.map_bind, Function.comp_def]
  | descend a => simp only [within, overwrite, Option.map_some, set_embedded_self hv]

theorem SyncAction.visit?_within (action : SyncAction)
    (hv : values[p.index]? = some (.embedded cls onDevice inner))
    (hremote : remotes[p.index]? = some (.embedded remoteCls remoteOnDevice remoteInner)) :
    (action.within p).visit? remotes values = action.visit? remoteInner inner := by
  cases action with
  | copy a => rfl
  | descend a => simp only [within, visit?, valueAt?_within hv, valueAt?_within hremote]

/-- A run of actions inside an object held by value is a run on the object. -/
theorem SyncAction.foldlM_within (actions : List SyncAction) {values inner : List Value}
    (hv : values[p.index]? = some (.embedded cls onDevice inner))
    (hremote : remotes[p.index]? = some (.embedded remoteCls remoteOnDevice remoteInner)) :
    (actions.map (.within p)).foldlM (SyncAction.overwrite remotes) values =
      (actions.foldlM (SyncAction.overwrite remoteInner) inner).map fun inner =>
        values.set p.index (.embedded cls onDevice inner) := by
  have hstep : ∀ (inner : List Value) (action : SyncAction),
      (action.within p).overwrite remotes (values.set p.index (.embedded cls onDevice inner)) =
        (action.overwrite remoteInner inner).map fun inner =>
          values.set p.index (.embedded cls onDevice inner) := by
    intro inner action
    rw [action.overwrite_within (getElem?_set_embedded hv) hremote]
    simp only [List.set_set]
  have hrun := foldlM_map_through
    (fun inner => values.set p.index (.embedded cls onDevice inner)) hstep actions inner
  rwa [set_embedded_self hv] at hrun

end Within

/-- Behind `n` other values, and in front of any, the actions make `results` of `values`, and bring
back the state of the pairs `visits`. -/
def SyncAction.Effect (actions : List SyncAction) (n : Nat) (remotes values results : List Value)
    (visits : List Visit) : Prop :=
  ∀ before remoteBefore after remoteAfter : List Value,
    before.length = n → remoteBefore.length = n →
    actions.foldlM (SyncAction.overwrite (remoteBefore ++ remotes ++ remoteAfter))
        (before ++ values ++ after) = some (before ++ results ++ after) ∧
      actions.filterMap (SyncAction.visit? (remoteBefore ++ remotes ++ remoteAfter)
        (before ++ values ++ after)) = visits

namespace SyncAction.Effect

variable {n : Nat} {f : Field}

/-- Where nothing is done, nothing changes. -/
theorem nil {remotes values : List Value} : Effect [] n remotes values values [] :=
  fun _ _ _ _ _ _ => ⟨rfl, rfl⟩

/-- The actions of a field come first, then those of the fields behind it. -/
theorem cons {own actions : List SyncAction} {v remote w : Value} {vs remotes ws : List Value}
    {ownVisits visits : List Visit} (hown : Effect own n [remote] [v] [w] ownVisits)
    (hrest : Effect actions (n + 1) remotes vs ws visits) :
    Effect (own ++ actions) n (remote :: remotes) (v :: vs) (w :: ws) (ownVisits ++ visits) := by
  intro before remoteBefore after remoteAfter hbefore hremote
  obtain ⟨hfold, hvisits⟩ :=
    hown before remoteBefore (vs ++ after) (remotes ++ remoteAfter) hbefore hremote
  -- the field counts as one more in front, with its new value for the run and its old value for
  -- the visits
  have hthen : ∀ x, _ := fun x => hrest (before ++ [x]) (remoteBefore ++ [remote]) after remoteAfter
    (by rw [List.length_append, hbefore]; rfl) (by rw [List.length_append, hremote]; rfl)
  have hthenFold := (hthen w).1
  have hthenVisits := (hthen v).2
  simp only [List.append_assoc, List.cons_append, List.nil_append] at *
  constructor
  · rw [List.foldlM_append, hfold]
    exact hthenFold
  · rw [List.filterMap_append, hvisits, hthenVisits]

/-- A copy takes the device's value. -/
theorem copy {v remote : Value} :
    Effect [.copy { place := ⟨n, f⟩ }] n [remote] [v] [remote] [] := by
  intro before remoteBefore after remoteAfter hbefore hremote
  refine ⟨?_, rfl⟩
  rw [List.foldlM_cons, overwrite, Access.valueAt?_here hremote, Option.bind_some,
    Access.writeValue?_here hbefore]
  rfl

/-- Where both values are references, the objects are visited if there are two. -/
theorem descend (plan? : String → Option Plan) (cls : String) (ref remoteRef : Option Nat) :
    Effect [.descend { place := ⟨n, f⟩ }] n [.object remoteRef] [.object ref] [.object ref]
      ((Value.object ref).pairs plan? (.nested cls) (.object remoteRef)) := by
  intro before remoteBefore after remoteAfter hbefore hremote
  refine ⟨rfl, ?_⟩
  simp only [List.filterMap_cons, List.filterMap_nil, visit?, Access.valueAt?_here hbefore,
    Access.valueAt?_here hremote]
  cases ref <;> cases remoteRef <;> rfl

/-- The actions inside an object held by value have their effect on its values. -/
theorem embedded {inner : List SyncAction} {values remotes results : List Value}
    {visits : List Visit} (cls remoteCls : String) (onDevice remoteOnDevice : Bool)
    (hinner : Effect inner 0 remotes values results visits) :
    Effect (inner.map (.within ⟨n, f⟩)) n [.embedded remoteCls remoteOnDevice remotes]
      [.embedded cls onDevice values] [.embedded cls onDevice results] visits := by
  intro before remoteBefore after remoteAfter hbefore hremote
  obtain ⟨hfold, hvisits⟩ := hinner [] [] [] [] rfl rfl
  simp only [List.nil_append, List.append_nil] at hfold hvisits
  have hv : (before ++ [.embedded cls onDevice values] ++ after)[n]?
      = some (.embedded cls onDevice values) := getElem?_append_singleton hbefore
  have hr : (remoteBefore ++ [.embedded remoteCls remoteOnDevice remotes] ++ remoteAfter)[n]?
      = some (.embedded remoteCls remoteOnDevice remotes) := getElem?_append_singleton hremote
  constructor
  · rw [foldlM_within inner hv hr, hfold, Option.map_some, set_append_singleton hbefore]
  · have hwithin : visit? _ _ ∘ within ⟨n, f⟩ = visit? remotes values :=
      funext fun action => action.visit?_within hv hr
    rw [List.filterMap_map, hwithin, hvisits]

end SyncAction.Effect

/-! ## Merging by actions -/

/-- Values that fit the fields, which come behind `n` others, are merged by carrying out the
actions. -/
def SyncAction.Merges (h : Heap) (actions : List SyncAction) (n : Nat) (fs : List Field) : Prop :=
  ∀ (cls : String) (vs remotes : List Value), Value.AllFit h.plan? fs vs →
    Value.AllFit h.plan? fs remotes →
    ∃ ws visits, Value.mergeAll h cls fs vs remotes = .ok (ws, visits) ∧
      SyncAction.Effect actions n remotes vs ws visits

namespace SyncAction.Merges

variable {h : Heap} {actions : List SyncAction} {n : Nat} {f : Field} {fs : List Field}

theorem nil : Merges h [] n [] := by
  intro cls vs remotes hvs hremotes
  cases hvs
  cases hremotes
  exact ⟨[], [], by simp [Value.mergeAll], .nil⟩

/-- A field that does not come back needs no action. -/
theorem constant (hf : f.syncBack = false) (htail : Merges h actions (n + 1) fs) :
    Merges h actions n (f :: fs) := by
  intro cls vs remotes hvs hremotes
  obtain ⟨v, vs, rfl, -, hvs⟩ := hvs.exists_cons
  obtain ⟨remote, remotes, rfl, -, hremotes⟩ := hremotes.exists_cons
  obtain ⟨ws, visits, hmerge, heffect⟩ := htail cls vs remotes hvs hremotes
  refine ⟨v :: ws, visits, ?_, .cons .nil heffect⟩
  rw [Value.mergeAll_cons, hf, hmerge]
  rfl

/-- The actions for a field that comes back are those that merge its value. -/
theorem cons (own : List SyncAction) (hf : f.syncBack = true)
    (hown : ∀ (cls : String) (v remote : Value), Value.Fits h.plan? f.kind v →
      Value.Fits h.plan? f.kind remote →
      ∃ w visits, v.merge h cls f remote = .ok (w, visits) ∧
        Effect own n [remote] [v] [w] visits)
    (htail : Merges h actions (n + 1) fs) : Merges h (own ++ actions) n (f :: fs) := by
  intro cls vs remotes hvs hremotes
  obtain ⟨v, vs, rfl, hv, hvs⟩ := hvs.exists_cons
  obtain ⟨remote, remotes, rfl, hremote, hremotes⟩ := hremotes.exists_cons
  obtain ⟨w, ownVisits, hhead, hfield⟩ := hown cls v remote hv hremote
  obtain ⟨ws, visits, hmerge, heffect⟩ := htail cls vs remotes hvs hremotes
  refine ⟨w :: ws, ownVisits ++ visits, ?_, hfield.cons heffect⟩
  rw [Value.mergeAll_cons, if_pos hf, hhead, hmerge]
  rfl

/-- What is held by value is merged by the actions for its class's plan. -/
theorem embedded {inner : List SyncAction} {target : String} {plan : Plan}
    (hk : f.kind = .embedded target) (hplan : h.plan? target = some plan)
    (hinner : Merges h inner 0 plan.fields) (cls : String) {v remote : Value}
    (hv : Value.Fits h.plan? f.kind v) (hremote : Value.Fits h.plan? f.kind remote) :
    ∃ w visits, v.merge h cls f remote = .ok (w, visits) ∧
      Effect (inner.map (.within ⟨n, f⟩)) n [remote] [v] [w] visits := by
  rw [hk] at hv hremote
  cases hv with | @embedded _ onDevice _ values hplan' hfit =>
  cases hremote with | @embedded _ remoteOnDevice _ remotes hplan'' hfit' =>
  obtain rfl := Option.some.inj (hplan.symm.trans hplan')
  obtain rfl := Option.some.inj (hplan.symm.trans hplan'')
  obtain ⟨results, visits, hmerge, heffect⟩ := hinner target values remotes hfit hfit'
  refine ⟨.embedded target onDevice results, visits, ?_,
    heffect.embedded target target onDevice remoteOnDevice⟩
  simp only [Value.merge, hk, hplan, checkCount_eq_ok hfit.length_eq,
    checkCount_eq_ok hfit'.length_eq, hmerge]
  rfl

end SyncAction.Merges

namespace Sample

/-- A class with device copies that extends the root and has the given fields. -/
def copiedClass (name : String) (fields : List Variable) : Class :=
  .derived
    { name
      object := .extension name Root.object fields
      metaclass := .extension (Name.metaclass name) Root.metaclass []
      methods := Root.methods.map (·.bindCopy name)
      coprocessor := true
      isAbstract := false }
    rootClass

/-- A holder keeps its number and refers to a motor. -/
def holder : Class :=
  copiedClass "Holder" [{ name := "id", type := .int, quals := { const := true } },
    { name := "motor", type := .struct "Motor", pointer := true }]

/-- A rig holds a holder by value, in front of a number. -/
def rig : Class :=
  copiedClass "Rig"
    [{ name := "holder", type := .struct "Holder" }, { name := "load", type := .int }]

end Sample

end ClassForge.Device

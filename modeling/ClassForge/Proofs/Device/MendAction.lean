import ClassForge.Class.Resolve
import ClassForge.Proofs.Device.Access
import ClassForge.Proofs.Device.Depth
import ClassForge.Proofs.Device.Expansion
import ClassForge.Proofs.Device.SyncAction

/-!
# Actions of mending a copy

A copy that was made byte by byte still has the host's class pointers and references. What the
routine that is generated for a class and the image of a record do about it alike is a list of
actions, each at a field that is reached through objects held by value. Main statement: the routine
has one block for each action, and the image is what the actions make of the record, one after the
other.
-/

namespace ClassForge.Device

open C ClassForge.Class

/-! ## Actions -/

/-- What is done to mend a copy. -/
inductive MendAction where
  /-- The class pointer of an object held by value changes to the device's. -/
  | repoint (a : Access)
  /-- The reference changes to the device copy of the object that it leads to. -/
  | redirect (a : Access)
deriving Repr, DecidableEq

/-- The same action seen from the object that holds the object by value. -/
def MendAction.within (p : Place) : MendAction → MendAction
  | .repoint a => .repoint (a.within p)
  | .redirect a => .redirect (a.within p)

/-- The actions for the fields of a plan from number `n` on: none for a field that crosses byte by
byte; for an object held by value its class pointer, then the actions of its class's plan, seen from
outside. Whether a field comes back makes no difference. -/
inductive Catalog.MendActions (cat : Catalog) : Nat → List Field → List MendAction → Prop
  | nil {n : Nat} : cat.MendActions n [] []
  | plain {n : Nat} {f : Field} {fs : List Field} {actions : List MendAction} {pointer : Bool}
    (hk : f.kind = .plain pointer) (htail : cat.MendActions (n + 1) fs actions) :
    cat.MendActions n (f :: fs) actions
  | redirect {n : Nat} {f : Field} {fs : List Field} {actions : List MendAction} {cls : String}
    (hk : f.kind = .nested cls) (htail : cat.MendActions (n + 1) fs actions) :
    cat.MendActions n (f :: fs) (.redirect { place := ⟨n, f⟩ } :: actions)
  | embedded {n : Nat} {f : Field} {fs : List Field} {actions inner : List MendAction}
    {cls : String} {s : StructType} (hk : f.kind = .embedded cls)
    (hs : cat.layout? cls = some s) (hinner : cat.MendActions 0 (cat.plan s).fields inner)
    (htail : cat.MendActions (n + 1) fs actions) :
    cat.MendActions n (f :: fs)
      (.repoint { place := ⟨n, f⟩ } :: inner.map (.within ⟨n, f⟩) ++ actions)

/-- The fields decide the actions. -/
theorem Catalog.MendActions.unique {cat : Catalog} {n : Nat} {fs : List Field}
    {actions actions' : List MendAction} (h : cat.MendActions n fs actions)
    (h' : cat.MendActions n fs actions') : actions = actions' := by
  -- the kind of a field fixes the rule, so a second derivation ends with the same one
  induction h generalizing actions' with
  | nil => cases h'; rfl
  | plain hk _ ih =>
    cases h' with
    | plain _ htail => exact ih htail
    | redirect hk' | embedded hk' => rw [hk] at hk'; cases hk'
  | redirect hk _ ih =>
    cases h' with
    | redirect _ htail => rw [ih htail]
    | plain hk' | embedded hk' => rw [hk] at hk'; cases hk'
  | embedded hk hs _ _ ihInner ihTail =>
    cases h' with
    | plain hk' | redirect hk' => rw [hk] at hk'; cases hk'
    | embedded hk' hs' hinner htail =>
      obtain rfl := FieldKind.embedded.inj (hk.symm.trans hk')
      obtain rfl := Option.some.inj (hs.symm.trans hs')
      rw [ihInner hinner, ihTail htail]

/-! ## Their blocks -/

/-- The block of an action. The variable for the address of a device copy is named after the fields
that lead to the reference; `place` names those in front of the action's own. -/
def MendAction.code (host copy place : String) : MendAction → List Code
  | .repoint a =>
    [.blank,
     .block
      [.line ("const struct MyriadClass* embedded_class = ((const struct MyriadObject*) "
        ++ a.address host ++ ")->m_class;"),
       .line ("memcpy((void*) &((struct MyriadObject*) " ++ a.address copy
        ++ ")->m_class, &embedded_class->device_class, sizeof(void*));")]]
  | .redirect a =>
    let device := "device_"
      ++ a.through.foldl (fun place p => place ++ p.field.name ++ "_") place ++ a.place.field.name
    [.blank,
     .line ("if (" ++ a.member host ++ " != NULL)"),
     .block
      [.line ("void* " ++ device ++ " = myriad_cudafy((void*) " ++ a.member host ++ ", 0);"),
       .line ("memcpy((void*) " ++ a.address copy ++ ", &" ++ device ++ ", sizeof(void*));")]]

theorem MendAction.code_within (host copy place : String) (p : Place) (action : MendAction) :
    (action.within p).code host copy place =
      action.code (Device.address host p.field) (Device.address copy p.field)
        (place ++ p.field.name ++ "_") := by
  cases action <;> rfl

/-- Fields that can be expanded have actions, and the code for the expansion is the blocks of the
actions. -/
theorem Catalog.Expands.exists_mendActions {cat : Catalog} {fs : List Field} {es : List Expanded}
    (h : cat.Expands (fun _ => true) fs es) : ∀ n, ∃ actions, cat.MendActions n fs actions ∧
      ∀ host copy place, Expanded.allToDevice host copy place es =
        actions.flatMap (·.code host copy place) := by
  induction h with
  | nil => exact fun n => ⟨[], .nil, fun _ _ _ => rfl⟩
  -- on the way to the device every field is kept
  | dropped hf => cases hf
  | @leaf f fs es _ hk _ ih =>
    intro n
    obtain ⟨actions, hactions, hcode⟩ := ih (n + 1)
    cases hkind : f.kind with
    | plain pointer =>
      refine ⟨actions, .plain hkind hactions, fun host copy place => ?_⟩
      simp only [Expanded.allToDevice, Expanded.toDevice, hkind, hcode, List.nil_append]
    | nested cls =>
      refine ⟨.redirect { place := ⟨n, f⟩ } :: actions, .redirect hkind hactions,
        fun host copy place => ?_⟩
      simp only [Expanded.allToDevice, Expanded.toDevice, hkind, hcode, List.flatMap_cons]
      rfl
    | embedded cls => exact absurd hkind (hk cls)
  | @embedded f fs cls s inner es _ hk hs _ _ ihInner ihTail =>
    intro n
    obtain ⟨actionsInner, hinner, hcodeInner⟩ := ihInner 0
    obtain ⟨actions, hactions, hcode⟩ := ihTail (n + 1)
    refine ⟨_, .embedded hk hs hinner hactions, fun host copy place => ?_⟩
    simp only [Expanded.allToDevice, Expanded.toDevice, hcode, hcodeInner, List.flatMap_append,
      List.flatMap_cons, List.flatMap_map, MendAction.code_within]
    rfl

/-! ## Their effect -/

/-- What came of an operation and the heaps after it, if it did not fail. -/
def Outcome.done? {α : Type} : Outcome α → Option (α × Heap)
  | (.ok a, h) => some (a, h)
  | (.error _, _) => none

/-- What an action makes of the values of a copy and of the heaps. A reference is replaced by what
`copy` returns for the object; null stays null. -/
def MendAction.perform (copy : Nat → Heap → Outcome Nat) (state : List Value × Heap) :
    MendAction → Option (List Value × Heap)
  | .repoint a =>
    match valueAt? a.indices state.1 with
    | some (.embedded cls _ inner) =>
      (writeValue? (.embedded cls true inner) a.indices state.1).map (·, state.2)
    | _ => none
  | .redirect a =>
    match valueAt? a.indices state.1 with
    | some (.object none) => some state
    | some (.object (some n)) =>
      (Outcome.done? (copy n state.2)).bind fun (k, h) =>
        (writeValue? (.object (some k)) a.indices state.1).map (·, h)
    | _ => none

section Within

variable {copy : Nat → Heap → Outcome Nat} {p : Place} {cls : String} {onDevice : Bool}
  {values inner : List Value}

theorem MendAction.perform_within (action : MendAction) (h : Heap)
    (hv : values[p.index]? = some (.embedded cls onDevice inner)) :
    (action.within p).perform copy (values, h) =
      (action.perform copy (inner, h)).map fun (inner, h) =>
        (values.set p.index (.embedded cls onDevice inner), h) := by
  -- both kinds read a value and write one; redirecting also runs the copy in between
  cases action with
  | repoint a =>
    simp only [within, perform, valueAt?_within hv, writeValue?_within _ hv]
    split
    next => simp only [Option.map_map, Function.comp_def]
    next => rfl
  | redirect a =>
    simp only [within, perform, valueAt?_within hv, writeValue?_within _ hv]
    split
    next => simp only [Option.map_some, set_embedded_self hv]
    next => simp only [Option.map_bind, Option.map_map, Function.comp_def]
    next => rfl

/-- A run of actions inside an object held by value is a run on the object. -/
theorem MendAction.foldlM_within (actions : List MendAction) {values inner : List Value}
    {h : Heap} (hv : values[p.index]? = some (.embedded cls onDevice inner)) :
    (actions.map (.within p)).foldlM (MendAction.perform copy) (values, h) =
      (actions.foldlM (MendAction.perform copy) (inner, h)).map fun (inner, h) =>
        (values.set p.index (.embedded cls onDevice inner), h) := by
  -- one action does the same to the embedded values wherever they stand
  have hstep : ∀ (state : List Value × Heap) (action : MendAction),
      (action.within p).perform copy
          (values.set p.index (.embedded cls onDevice state.1), state.2) =
        (action.perform copy state).map fun state =>
          (values.set p.index (.embedded cls onDevice state.1), state.2) := by
    intro state action
    rw [action.perform_within state.2 (getElem?_set_embedded hv)]
    simp only [List.set_set]
  have hrun := foldlM_map_through
    (fun state => (values.set p.index (.embedded cls onDevice state.1), state.2)) hstep actions
    (inner, h)
  rwa [set_embedded_self hv] at hrun

end Within

/-! ## The image by actions -/

/-- On values that fit the fields, which come behind `n` others, the actions make the images of the
values, and fail where making those fails. -/
def MendAction.Mends (copy : Nat → Heap → Outcome Nat) (plan? : String → Option Plan)
    (actions : List MendAction) (n : Nat) (fs : List Field) : Prop :=
  ∀ (cls : String) (vs : List Value) (h : Heap), h.plan? = plan? → Value.AllFit plan? fs vs →
    ∀ before after : List Value, before.length = n →
      actions.foldlM (MendAction.perform copy) (before ++ vs ++ after, h) =
        (Outcome.done? (Value.images copy cls fs vs h)).map fun (ws, h) =>
          (before ++ ws ++ after, h)

namespace MendAction.Mends

variable {copy : Nat → Heap → Outcome Nat} {plan? : String → Option Plan}
  {actions : List MendAction} {n : Nat} {f : Field} {fs : List Field}

theorem nil : Mends copy plan? [] n [] := by
  intro cls vs h _ hvs before after _
  cases hvs
  simp [Value.images, Outcome.done?]

/-- The actions of a field come first and make the image of its value, then those of the fields
behind it. -/
theorem cons (own : List MendAction) (hcopy : Heap.Traverses copy)
    (hown : ∀ (cls : String) (v : Value) (h : Heap), h.plan? = plan? → Value.Fits plan? f.kind v →
      ∀ before after : List Value, before.length = n →
        own.foldlM (MendAction.perform copy) (before ++ [v] ++ after, h) =
          (Outcome.done? (v.image copy cls f h)).map fun (w, h) => (before ++ [w] ++ after, h))
    (htail : Mends copy plan? actions (n + 1) fs) :
    Mends copy plan? (own ++ actions) n (f :: fs) := by
  intro cls vs h hplan hvs before after hbefore
  obtain ⟨v, vs, rfl, hv, hvs⟩ := hvs.exists_cons
  have hhead := hown cls v h hplan hv before (vs ++ after) hbefore
  rw [List.append_assoc, List.singleton_append] at hhead
  rw [List.foldlM_append, List.append_assoc, List.cons_append, hhead]
  simp only [Value.images]
  rcases himage : v.image copy cls f h with ⟨_ | w, h₁⟩
  · rfl
  · obtain ⟨new, ht, -⟩ := Value.image_ok hcopy himage
    -- for the actions behind, the field counts as one more in front
    have hrest := htail cls vs h₁ (ht.plan?_eq.trans hplan) hvs (before ++ [w]) after
      (by rw [List.length_append, hbefore]; rfl)
    simp only [Outcome.done?, Option.map_some, Option.bind_eq_bind, Option.bind_some]
    rw [← List.append_assoc, hrest]
    rcases Value.images copy cls fs vs h₁ with ⟨_ | ws, h₂⟩
    · rfl
    · simp only [Outcome.done?, Option.map_some, List.append_assoc, List.cons_append,
        List.nil_append]

/-- A value that crosses byte by byte needs no action. -/
theorem plain {pointer : Bool} (hk : f.kind = .plain pointer) (hcopy : Heap.Traverses copy)
    (htail : Mends copy plan? actions (n + 1) fs) : Mends copy plan? actions n (f :: fs) := by
  refine cons [] hcopy (fun cls v h _ _ before after _ => ?_) htail
  rw [Value.image_plain hk]
  rfl

/-- A reference is redirected. -/
theorem redirect {cls : String} (hk : f.kind = .nested cls) (hcopy : Heap.Traverses copy)
    (htail : Mends copy plan? actions (n + 1) fs) :
    Mends copy plan? (.redirect { place := ⟨n, f⟩ } :: actions) n (f :: fs) := by
  refine cons [.redirect { place := ⟨n, f⟩ }] hcopy (fun cls v h _ hv before after hbefore => ?_)
    htail
  rw [hk] at hv
  cases hv with | @nested _ ref =>
  simp only [List.foldlM_cons, List.foldlM_nil, perform, Access.valueAt?_here hbefore,
    Access.writeValue?_here hbefore, Value.image, hk]
  cases ref with
  | none => rfl
  | some i => rcases hn : copy i h with ⟨_ | k, h₁⟩ <;> simp [hn, Outcome.done?]

/-- The class pointer of an object held by value changes, and then what its class's plan says. -/
theorem embedded {inner : List MendAction} {target : String} {plan : Plan}
    (hk : f.kind = .embedded target) (hplan : plan? target = some plan)
    (hcopy : Heap.Traverses copy) (hinner : Mends copy plan? inner 0 plan.fields)
    (htail : Mends copy plan? actions (n + 1) fs) :
    Mends copy plan? (.repoint { place := ⟨n, f⟩ } :: inner.map (.within ⟨n, f⟩) ++ actions) n
      (f :: fs) := by
  refine cons _ hcopy (fun cls v h hplans hv before after hbefore => ?_) htail
  rw [hk] at hv
  cases hv with | @embedded _ onDevice _ values hplan' hfit =>
  obtain rfl := Option.some.inj (hplan.symm.trans hplan')
  have hrun := hinner target values h hplans hfit [] [] rfl
  simp only [List.nil_append, List.append_nil] at hrun
  -- the mark comes first, so the inner actions find the record as one on the device
  have hat : (before ++ [.embedded target true values] ++ after)[n]?
      = some (.embedded target true values) := getElem?_append_singleton hbefore
  simp only [List.foldlM_cons, perform, Access.valueAt?_here hbefore,
    Access.writeValue?_here hbefore, Option.map_some, Option.bind_eq_bind, Option.bind_some,
    Value.image, hk, hplans, hplan, checkCount_eq_ok hfit.length_eq]
  rw [foldlM_within inner hat, hrun]
  -- an error inside ends the run there, on both sides
  rcases Value.images copy target plan.fields values h with ⟨_ | ws, h₁⟩
  · rfl
  · simp only [Outcome.done?, Option.map_some, set_append_singleton hbefore]

end MendAction.Mends

namespace Sample

end Sample

end ClassForge.Device

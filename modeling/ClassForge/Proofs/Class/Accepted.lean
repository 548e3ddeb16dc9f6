import ClassForge.Proofs.C.Signature
import ClassForge.Proofs.Class.EntryPoint
import ClassForge.Proofs.Class.Table

/-!
# Definitions that were accepted

A method definition is accepted with a signature that was declared, as that of an instance method,
and without parameters whose names its entry points use. That is all that is ever checked of what is
derived from it: the signatures of the entry points, the field for the slot, and the pieces that are
made for it.
-/

namespace ClassForge.Class

open C

/-- A definition that was accepted, with a signature that was declared. -/
def MethodDef.Accepted (f : MethodDef) : Prop :=
  ∃ (name : String) (params : List Variable) (returns : TypeUse) (role : Role) (s : Signature)
    (kind : MethodKind) (text : Option String),
    Signature.declare name params returns role = .ok s ∧ MethodDef.define s kind text = .ok f

theorem MethodDef.accepted_of {f : MethodDef} (kind : MethodKind) (text : Option String)
    (hdeclare : Signature.declare f.signature.name f.signature.params f.signature.returns
      f.signature.role = .ok f.signature)
    (hdefine : MethodDef.define f.signature kind text = .ok f) : f.Accepted :=
  ⟨_, _, _, _, _, kind, text, hdeclare, hdefine⟩

/-! ## Signatures and fields made step by step -/

/-- The signature of a delegator, made from that of its method with the check of the new name. -/
def checkedDelegator (introducer : String) (s : Signature) : Except TypeError Signature :=
  s.rename (Name.delegator introducer s.name) .delegator

/-- The signature of a super-delegator, made from that of its method with all checks: of the
parameter that it takes first, of the parameters together, and of the new name. -/
def checkedSuperDelegator (s : Signature) : Except TypeError Signature := do
  let param ← Variable.declare Name.classParam .void true { const := true }
  let t ← s.withLeading param
  t.rename (Name.superDelegator s.name) .superDelegator

/-- The field for the slot of an entry, made with the check of its name. -/
def Method.checkedSlotField (m : Method) : Except TypeError Variable :=
  Variable.declare m.slot (.typedef m.typedef) false {}

theorem isIdentifier_metaclass {object : String} (h : isIdentifier object = true) :
    isIdentifier (Name.metaclass object) = true := by
  unfold Name.metaclass
  split
  · decide
  · exact isIdentifier_append h (by decide)

theorem checkedDelegator_eq_ok {s : Signature} (hname : isIdentifier s.name = true)
    (introducer : String) :
    checkedDelegator introducer s = .ok (delegatorSignature introducer s) := by
  have hdelegator : isIdentifier (Name.delegator introducer s.name) = true := by
    unfold Name.delegator
    split
    · exact isIdentifier_prefixed (by decide) hname
    · exact hname
  rw [checkedDelegator, Signature.rename, checkName_eq_ok.2 hdelegator]
  rfl

/-- The parameter in front is none of the method's own: its name is reserved. -/
theorem checkParams_classParam {function : String} {params : List Variable}
    (hparams : Signature.checkParams function [] params = .ok ())
    (hreserved : ∀ p ∈ params, p.name ∉ Name.reserved) :
    Signature.checkParams function [] (classParam :: params) = .ok () := by
  obtain ⟨hstorable, hnodup⟩ := Signature.checkParams_eq_ok.1 hparams
  refine Signature.checkParams_eq_ok.2 ⟨List.forall_mem_cons.2 ⟨by decide, hstorable⟩, ?_⟩
  refine List.nodup_cons.2 ⟨fun hmem => ?_, hnodup⟩
  obtain ⟨p, hp, hname⟩ := List.mem_map.1 hmem
  exact hreserved p hp (hname ▸ by decide)

theorem checkedSuperDelegator_eq_ok {s : Signature} (hname : isIdentifier s.name = true)
    (hparams : Signature.checkParams s.name [] s.params = .ok ())
    (hreturns : s.returns.quals.storage = none)
    (hreserved : ∀ p ∈ s.params, p.name ∉ Name.reserved) :
    checkedSuperDelegator s = .ok (superSignature s) := by
  have hparam : Variable.declare Name.classParam .void true { const := true } = .ok classParam := by
    rfl
  have hdeclare : Signature.declare s.name (classParam :: s.params) s.returns s.role = .ok _ :=
    Signature.declare_eq_ok.2 ⟨hname, checkParams_classParam hparams hreserved, hreturns,
      fun _ => rfl, rfl⟩
  have hsuper : isIdentifier (Name.superDelegator s.name) = true :=
    isIdentifier_prefixed (by decide) hname
  rw [checkedSuperDelegator, hparam]
  refine bind_eq_ok.2 ⟨_, rfl, ?_⟩
  rw [Signature.withLeading, hdeclare]
  refine bind_eq_ok.2 ⟨_, rfl, ?_⟩
  rw [Signature.rename, checkName_eq_ok.2 hsuper]
  rfl

/-! ## What was checked -/

/-- What is checked before a definition is accepted. -/
structure MethodDef.Checked (f : MethodDef) : Prop where
  name : isIdentifier f.name = true
  params : Signature.checkParams f.name [] f.signature.params = .ok ()
  returns : f.signature.returns.quals.storage = none
  role : f.signature.role = .method
  self : f.signature.self?.isSome = true
  reserved : ∀ p ∈ f.signature.params, p.name ∉ Name.reserved

theorem MethodDef.define_ok {s : Signature} {kind : MethodKind} {text : Option String}
    {f : MethodDef} (h : define s kind text = .ok f) :
    f.signature = s ∧ s.role = .method ∧ ∀ p ∈ s.params, p.name ∉ Name.reserved := by
  unfold define at h
  by_cases hrole : s.role = .method
  · simp only [hrole, ne_eq, not_true_eq_false, if_false] at h
    split at h
    next => cases h
    next hreserved =>
      obtain ⟨supply, -, h⟩ := bind_eq_ok.1 h
      obtain rfl := pure_eq_ok.1 h
      exact ⟨rfl, hrole, by simpa using hreserved⟩
  · simp only [ne_eq, hrole, not_false_eq_true, if_true] at h
    exact absurd h throw_bind_ne_ok

theorem MethodDef.Accepted.checked {f : MethodDef} (h : f.Accepted) : f.Checked := by
  obtain ⟨name, params, returns, role, s, kind, text, hdeclare, hdefine⟩ := h
  obtain ⟨hsignature, hrole, hreserved⟩ := MethodDef.define_ok hdefine
  obtain ⟨hname, hparams, hreturns, hself, hs⟩ := Signature.declare_eq_ok.1 hdeclare
  rw [hs] at hsignature hrole hreserved hself
  rw [← hsignature] at hself hreserved
  have hfname : f.name = name := congrArg Signature.name hsignature
  have hfparams : f.signature.params = params := congrArg Signature.params hsignature
  exact
    { name := hfname ▸ hname
      params := by rw [hfname, hfparams]; exact hparams
      returns := by rw [hsignature]; exact hreturns
      role := by rw [hsignature]; exact hrole
      self := hself hrole
      reserved := hreserved }

/-! ## What follows without a further check -/

namespace MethodDef.Checked

variable {f : MethodDef}

theorem checkedDelegator_eq (h : f.Checked) (introducer : String) :
    checkedDelegator introducer f.signature = .ok (delegatorSignature introducer f.signature) :=
  checkedDelegator_eq_ok h.name introducer

theorem checkedSuperDelegator_eq (h : f.Checked) :
    checkedSuperDelegator f.signature = .ok (superSignature f.signature) :=
  checkedSuperDelegator_eq_ok h.name h.params h.returns h.reserved

theorem checkedSlotField_eq (h : f.Checked) (introducer : String) :
    (f.introduce introducer).checkedSlotField = .ok (f.introduce introducer).slotField := by
  have hname : isIdentifier (Name.slot f.name) = true :=
    isIdentifier_prefixed (by decide) h.name
  rw [Method.checkedSlotField, Variable.declare, Method.slot, name_introduce,
    checkName_eq_ok.2 hname]
  rfl

/-- The check in front of each piece passes. -/
theorem exists_checkMethod (h : f.Checked) (owner : String) :
    ∃ self, EntryPoints.checkMethod owner f.signature = .ok self := by
  obtain ⟨self, hself⟩ := Option.isSome_iff_exists.1 h.self
  have hreserved : f.signature.params.find? (Name.reserved.contains ·.name) = none := by
    simpa using h.reserved
  exact ⟨self, by rw [EntryPoints.checkMethod, hself]; dsimp only; rw [hreserved]⟩

end MethodDef.Checked

end ClassForge.Class

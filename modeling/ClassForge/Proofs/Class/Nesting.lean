import ClassForge.Proofs.C.Nesting
import ClassForge.Proofs.Class.Reached

/-!
# Nesting of entry points

The bodies of delegators and super-delegators are complete code: names aside they hold what does not
change from method to method. So are the bodies of all functions that are given out for names that
were checked.
-/

namespace ClassForge.Class

open C C.Code

/-- The bodies of both functions of a method are complete code. -/
structure Entry.Complete (made : Entry) : Prop where
  delegator : made.delegator.Complete
  superDelegator : made.superDelegator.Complete

namespace EntryPoints

/-! ### Bodies -/

variable {owner : String} {s : Signature}

theorem neutral_callText {callee : String} (hcallee : Neutral callee)
    (hparams : ∀ p ∈ s.params, isIdentifier p.name = true) : Neutral (s.callText callee) := by
  have hnames : Neutral (", ".intercalate (s.params.map (·.name))) :=
    .commas (List.forall_mem_map.2 fun p hp => .of_isIdentifier (hparams p hp))
  refine .of_zero ?_
  simp [Signature.callText, openBehind?, hcallee.behind, hnames.behind, -String.toList_intercalate]

theorem complete_returnCode {callee : String} (hcallee : Neutral callee)
    (hparams : ∀ p ∈ s.params, isIdentifier p.name = true) : Complete (returnCode s callee) := by
  have hcall := neutral_callText hcallee hparams
  unfold returnCode
  split
  · exact .line (hcall.append (.literal rfl)) (.line (.literal rfl) .nil)
  · exact .line (((Neutral.literal rfl).append hcall).append (.literal rfl)) .nil

theorem complete_lookup {name source : String} (howner : isIdentifier owner = true)
    (hname : Neutral name) (hsource : Neutral source) {cs : List Code} (hcs : Complete cs) :
    Complete (lookupCode owner name source :: cs) := by
  have hmetaclass := Neutral.of_isIdentifier (isIdentifier_metaclass howner)
  refine .line (.of_zero ?_) hcs
  simp [openBehind?, hmetaclass.behind, hname.behind, hsource.behind]

theorem neutral_slot {method : String} (h : isIdentifier method = true) :
    Neutral (Name.slot method) :=
  (Neutral.literal rfl).append (.of_isIdentifier h)

theorem complete_delegatorCode {self : String} (howner : isIdentifier owner = true)
    (hname : isIdentifier s.name = true) (hparams : ∀ p ∈ s.params, isIdentifier p.name = true)
    (hself : isIdentifier self = true) : Complete (delegatorCode owner s self) := by
  have hslot := neutral_slot hname
  have hself := Neutral.of_isIdentifier hself
  refine complete_lookup howner (.literal rfl) (.of_zero ?_) (.line (.of_zero ?_)
    (complete_returnCode ((Neutral.literal rfl).append hslot) hparams))
  · simp [openBehind?, hself.behind]
  · simp [openBehind?, hslot.behind]

theorem complete_superCode (howner : isIdentifier owner = true) (hname : isIdentifier s.name = true)
    (hparams : ∀ p ∈ s.params, isIdentifier p.name = true) : Complete (superCode owner s) := by
  refine complete_lookup howner (.literal rfl) (.of_zero ?_)
    (complete_returnCode ((Neutral.literal rfl).append (neutral_slot hname)) hparams)
  simp [openBehind?, Name.classParam]

/-! ### Functions that are given out -/

theorem Given.complete {kind : PieceKind} {g : FunctionDef} (h : Given kind g) : g.Complete := by
  obtain ⟨q, self, hq, hself, hg⟩ := h.cases
  obtain ⟨others, hothers⟩ := Signature.exists_of_self? hself
  have hobject := hq.isIdentifier_param self (hothers ▸ List.mem_cons_self)
  rcases hg with ⟨-, rfl⟩ | ⟨-, rfl⟩
  · exact ⟨_, rfl,
      complete_delegatorCode hq.owner hq.isIdentifier_name hq.isIdentifier_param hobject⟩
  · exact ⟨_, rfl, complete_superCode hq.owner hq.isIdentifier_name hq.isIdentifier_param⟩

theorem EntryGiven.complete {made : Entry} (h : EntryGiven made) : made.Complete :=
  ⟨h.delegator.complete, h.superDelegator.complete⟩

end EntryPoints

end ClassForge.Class

import ClassForge.Proofs.Class.Supply
import ClassForge.Proofs.Device.Expansion
import Mathlib.Data.List.Nodup

/-!
# When a plan cannot be expanded

An expansion goes down into the objects that fields hold by value, with the classes that it is
inside of on a path. It is stopped by a class that is on the path and by one whose object struct is
not known, wherever it reaches them (`Fault`), and by nothing else. `Descends` follows it step by
step with a path that is pushed and popped; what comes off is what was put on, so that what a field
holds is no matter for the fields next to it.
-/

namespace ClassForge.Device

open C ClassForge.Class

namespace Catalog

variable {cat : Catalog} {keep : Field → Bool} {path path' : List String} {f : Field}
  {fs : List Field} {cls : String}

/-! ## One field after the other -/

theorem expand_dropped (hf : keep f = false) :
    cat.expand keep path (f :: fs) = cat.expand keep path fs := by
  rw [expand, if_neg (by simp [hf])]

theorem expand_leaf (hf : keep f = true) (hk : ∀ cls, f.kind ≠ .embedded cls) :
    cat.expand keep path (f :: fs) = (cat.expand keep path fs).map (.leaf f :: ·) := by
  rw [expand, if_pos hf]
  split
  next cls hembedded => exact absurd hembedded (hk cls)
  next => rfl

theorem expand_again (hf : keep f = true) (hk : f.kind = .embedded cls) (hmem : cls ∈ path) :
    cat.expand keep path (f :: fs) = .error (.embedsItself (path ++ [cls])) := by
  rw [expand, if_pos hf, hk]
  exact dif_pos hmem

theorem expand_unknown (hf : keep f = true) (hk : f.kind = .embedded cls) (hmem : cls ∉ path)
    (hs : cat.layout? cls = none) :
    cat.expand keep path (f :: fs) = .error (.unknownLayout cls) := by
  rw [expand, if_pos hf, hk]
  dsimp only
  rw [dif_neg hmem]
  split
  next => rfl
  next s hsome => rw [hs] at hsome; cases hsome

/-- An object that can be entered is expanded with its class on the path, then the fields behind
it without. -/
theorem expand_embedded {s : StructType} (hf : keep f = true) (hk : f.kind = .embedded cls)
    (hmem : cls ∉ path) (hs : cat.layout? cls = some s) :
    cat.expand keep path (f :: fs)
      = cat.expand keep (path ++ [cls]) (cat.plan s).fields >>= fun inner =>
        (cat.expand keep path fs).map (.embedded f inner :: ·) := by
  rw [expand, if_pos hf, hk]
  dsimp only
  rw [dif_neg hmem]
  split
  next hnone => rw [hs] at hnone; cases hnone
  next s' hsome =>
    obtain rfl := Option.some.inj (hs.symm.trans hsome)
    rfl

/-! ## Step by step -/

/-- A descent through fields with one path for all of it. A class goes onto the path before its
fields are visited, and the last class comes off behind them. A class that is on the path already
goes onto it for the report, and a descent that fails leaves the path as it is then. -/
inductive Descends (cat : Catalog) (keep : Field → Bool) :
    List String → List Field → Except ModelError (List Expanded) → List String → Prop
  | done {path : List String} : Descends cat keep path [] (.ok []) path
  | dropped {path path' : List String} {f : Field} {fs : List Field}
    {result : Except ModelError (List Expanded)} (hf : keep f = false)
    (htail : Descends cat keep path fs result path') : Descends cat keep path (f :: fs) result path'
  | leaf {path path' : List String} {f : Field} {fs : List Field}
    {result : Except ModelError (List Expanded)} (hf : keep f = true)
    (hk : ∀ cls, f.kind ≠ .embedded cls) (htail : Descends cat keep path fs result path') :
    Descends cat keep path (f :: fs) (result.map (.leaf f :: ·)) path'
  | again {path : List String} {f : Field} {fs : List Field} {cls : String} (hf : keep f = true)
    (hk : f.kind = .embedded cls) (hmem : cls ∈ path) :
    Descends cat keep path (f :: fs) (.error (.embedsItself (path ++ [cls]))) (path ++ [cls])
  | unknown {path : List String} {f : Field} {fs : List Field} {cls : String} (hf : keep f = true)
    (hk : f.kind = .embedded cls) (hmem : cls ∉ path) (hs : cat.layout? cls = none) :
    Descends cat keep path (f :: fs) (.error (.unknownLayout cls)) path
  | stopped {path path' : List String} {f : Field} {fs : List Field} {cls : String} {s : StructType}
    {e : ModelError} (hf : keep f = true) (hk : f.kind = .embedded cls) (hmem : cls ∉ path)
    (hs : cat.layout? cls = some s)
    (hinner : Descends cat keep (path ++ [cls]) (cat.plan s).fields (.error e) path') :
    Descends cat keep path (f :: fs) (.error e) path'
  | embedded {path inside path' : List String} {f : Field} {fs : List Field} {cls : String}
    {s : StructType} {inner : List Expanded} {result : Except ModelError (List Expanded)}
    (hf : keep f = true) (hk : f.kind = .embedded cls) (hmem : cls ∉ path)
    (hs : cat.layout? cls = some s)
    (hinner : Descends cat keep (path ++ [cls]) (cat.plan s).fields (.ok inner) inside)
    (htail : Descends cat keep inside.dropLast fs result path') :
    Descends cat keep path (f :: fs) (result.map (.embedded f inner :: ·)) path'

/-- A descent gives the expansion, or its fault, and has the path as it was where it succeeds. -/
theorem Descends.eq_expand {result : Except ModelError (List Expanded)}
    (h : cat.Descends keep path fs result path') :
    result = cat.expand keep path fs ∧ ∀ es, result = .ok es → path' = path := by
  induction h with
  | done => exact ⟨by rw [expand], fun _ _ => rfl⟩
  | dropped hf _ ih => rwa [expand_dropped hf]
  | @leaf path path' f fs result hf hk _ ih =>
    obtain ⟨rfl, hpath⟩ := ih
    refine ⟨(expand_leaf hf hk).symm, fun es hes => ?_⟩
    obtain ⟨rest, hrest, -⟩ := map_eq_ok.1 hes
    exact hpath rest hrest
  | again hf hk hmem =>
    rw [expand_again hf hk hmem]
    refine ⟨rfl, fun es hes => ?_⟩
    cases hes
  | unknown hf hk hmem hs =>
    rw [expand_unknown hf hk hmem hs]
    refine ⟨rfl, fun es hes => ?_⟩
    cases hes
  | stopped hf hk hmem hs _ ih =>
    rw [expand_embedded hf hk hmem hs, ← ih.1]
    refine ⟨rfl, fun es hes => ?_⟩
    cases hes
  | embedded hf hk hmem hs _ _ ihInner ihTail =>
    obtain ⟨hinner, hinside⟩ := ihInner
    -- what the class's own fields have put on the path is off again, so its name comes off
    rw [hinside _ rfl, List.dropLast_concat] at ihTail
    obtain ⟨rfl, hpath⟩ := ihTail
    rw [expand_embedded hf hk hmem hs, ← hinner]
    refine ⟨rfl, fun es hes => ?_⟩
    obtain ⟨rest, hrest, -⟩ := map_eq_ok.1 hes
    exact hpath rest hrest

/-- Every descent comes to an end. -/
theorem exists_descends (cat : Catalog) (keep : Field → Bool) (path : List String)
    (fs : List Field) : ∃ path', cat.Descends keep path fs (cat.expand keep path fs) path' := by
  fun_induction cat.expand keep path fs with
  | case1 path => exact ⟨path, .done⟩
  | case2 path f fs hf cls hk hmem => exact ⟨_, .again hf hk hmem⟩
  | case3 path f fs hf cls hk hmem hnone => exact ⟨path, .unknown hf hk hmem hnone⟩
  -- an inner list that expands gives the path back as it was, one that fails ends the descent
  | case4 path f fs hf cls hk hmem s hs ihInner ihTail =>
    obtain ⟨inside, hinner⟩ := ihInner
    obtain ⟨path', htail⟩ := ihTail
    cases hresult : cat.expand keep (path ++ [cls]) (cat.plan s).fields with
    | error e =>
      rw [hresult] at hinner
      exact ⟨inside, .stopped hf hk hmem hs hinner⟩
    | ok inner =>
      have hinside := hinner.eq_expand.2 inner hresult
      rw [hresult] at hinner
      rw [hinside] at hinner
      refine ⟨path', .embedded hf hk hmem hs hinner ?_⟩
      rwa [List.dropLast_concat]
  | case5 path f fs hf hk ih =>
    obtain ⟨path', htail⟩ := ih
    exact ⟨path', .leaf hf hk htail⟩
  | case6 path f fs hf ih =>
    obtain ⟨path', htail⟩ := ih
    exact ⟨path', .dropped (eq_false_of_ne_true hf) htail⟩

/-! ## Faults -/

/-- What stops a descent, somewhere below fields that satisfy `keep`: an object of a class that is
on the path there, or of one whose object struct is not known. -/
inductive Fault (cat : Catalog) (keep : Field → Bool) :
    List String → List Field → ModelError → Prop
  | again {path : List String} {f : Field} {fs : List Field} {cls : String} (hmem : f ∈ fs)
    (hf : keep f = true) (hk : f.kind = .embedded cls) (hpath : cls ∈ path) :
    Fault cat keep path fs (.embedsItself (path ++ [cls]))
  | unknown {path : List String} {f : Field} {fs : List Field} {cls : String} (hmem : f ∈ fs)
    (hf : keep f = true) (hk : f.kind = .embedded cls) (hpath : cls ∉ path)
    (hs : cat.layout? cls = none) : Fault cat keep path fs (.unknownLayout cls)
  | within {path : List String} {f : Field} {fs : List Field} {cls : String} {s : StructType}
    {e : ModelError} (hmem : f ∈ fs) (hf : keep f = true) (hk : f.kind = .embedded cls)
    (hpath : cls ∉ path) (hs : cat.layout? cls = some s)
    (hinner : Fault cat keep (path ++ [cls]) (cat.plan s).fields e) : Fault cat keep path fs e

namespace Fault

variable {e : ModelError}

/-- Fields that are among others have no other faults. -/
theorem subset {fs' : List Field} (h : cat.Fault keep path fs e) (hsub : fs ⊆ fs') :
    cat.Fault keep path fs' e := by
  cases h with
  | again hmem hf hk hpath => exact .again (hsub hmem) hf hk hpath
  | unknown hmem hf hk hpath hs => exact .unknown (hsub hmem) hf hk hpath hs
  | within hmem hf hk hpath hs hinner => exact .within (hsub hmem) hf hk hpath hs hinner

theorem of_mem (h : cat.Fault keep path [f] e) (hf : f ∈ fs) : cat.Fault keep path fs e :=
  h.subset fun _ hg => List.mem_singleton.1 hg ▸ hf

/-- A fault is below one of the fields. -/
theorem exists_mem (h : cat.Fault keep path fs e) : ∃ f ∈ fs, cat.Fault keep path [f] e := by
  cases h with
  | again hmem hf hk hpath => exact ⟨_, hmem, .again List.mem_cons_self hf hk hpath⟩
  | unknown hmem hf hk hpath hs => exact ⟨_, hmem, .unknown List.mem_cons_self hf hk hpath hs⟩
  | within hmem hf hk hpath hs hinner =>
    exact ⟨_, hmem, .within List.mem_cons_self hf hk hpath hs hinner⟩

/-- Where more fields are entered there are more faults. -/
theorem mono {keep' : Field → Bool} (hkeep : ∀ f, keep f = true → keep' f = true)
    (h : cat.Fault keep path fs e) : cat.Fault keep' path fs e := by
  induction h with
  | again hmem hf hk hpath => exact .again hmem (hkeep _ hf) hk hpath
  | unknown hmem hf hk hpath hs => exact .unknown hmem (hkeep _ hf) hk hpath hs
  | within hmem hf hk hpath hs _ ih => exact .within hmem (hkeep _ hf) hk hpath hs ih

end Fault

variable {e : ModelError}

/-- A fault that is reported is one that there is. -/
theorem fault_of_expand_error (h : cat.expand keep path fs = .error e) :
    cat.Fault keep path fs e := by
  fun_induction cat.expand keep path fs with
  | case1 => cases h
  | case2 path f fs hf cls hk hmem =>
    cases h
    exact .again List.mem_cons_self hf hk hmem
  | case3 path f fs hf cls hk hmem hnone =>
    cases h
    exact .unknown List.mem_cons_self hf hk hmem hnone
  | case4 path f fs hf cls hk hmem s hs ihInner ihTail =>
    -- the fault lies in the embedded record or in a later field
    obtain h | ⟨inner, -, h⟩ := bind_eq_error.1 h
    · exact .within List.mem_cons_self hf hk hmem hs (ihInner h)
    · obtain h | ⟨es, -, h⟩ := bind_eq_error.1 h
      · exact (ihTail h).subset (List.subset_cons_self _ _)
      · cases h
  | case5 path f fs hf hk ih =>
    obtain h | ⟨es, -, h⟩ := bind_eq_error.1 h
    · exact (ih h).subset (List.subset_cons_self _ _)
    · cases h
  | case6 path f fs hf ih => exact (ih h).subset (List.subset_cons_self _ _)

/-- A field that a fault is below holds an object by value, and the fault is with its class or below
that. -/
theorem Fault.of_singleton (h : cat.Fault keep path [f] e) :
    keep f = true ∧ ∃ cls, f.kind = .embedded cls ∧ (cls ∉ path →
      ∀ s, cat.layout? cls = some s → cat.Fault keep (path ++ [cls]) (cat.plan s).fields e) := by
  -- each rule is about a member of the list, and the list has one
  cases h with
  | again hmem hf hk hpath =>
    obtain rfl := List.mem_singleton.1 hmem
    exact ⟨hf, _, hk, fun hnot => absurd hpath hnot⟩
  | unknown hmem hf hk _ hs =>
    obtain rfl := List.mem_singleton.1 hmem
    refine ⟨hf, _, hk, fun _ s hsome => ?_⟩
    rw [hs] at hsome
    cases hsome
  | within hmem hf hk _ hs hinner =>
    obtain rfl := List.mem_singleton.1 hmem
    refine ⟨hf, _, hk, fun _ s hsome => ?_⟩
    obtain rfl := Option.some.inj (hs.symm.trans hsome)
    exact hinner

theorem Fault.head_or_tail (h : cat.Fault keep path (f :: fs) e) :
    cat.Fault keep path [f] e ∨ cat.Fault keep path fs e := by
  obtain ⟨g, hg, hfault⟩ := h.exists_mem
  obtain rfl | hg := List.mem_cons.1 hg
  · exact .inl hfault
  · exact .inr (hfault.of_mem hg)

/-- What was expanded has no fault anywhere. -/
theorem not_fault_of_expand_ok {es : List Expanded} (h : cat.expand keep path fs = .ok es) :
    ¬ cat.Fault keep path fs e := by
  fun_induction cat.expand keep path fs generalizing es with
  | case1 path =>
    intro hfault
    obtain ⟨f, hf, -⟩ := hfault.exists_mem
    cases hf
  | case2 => cases h
  | case3 => cases h
  | case4 path f fs hf cls hk hmem s hs ihInner ihTail =>
    obtain ⟨inner, hinner, h⟩ := bind_eq_ok.1 h
    obtain ⟨rest, hrest, -⟩ := bind_eq_ok.1 h
    intro hfault
    -- the field embeds one class, and what is below it did expand
    rcases hfault.head_or_tail with hhead | htail
    · obtain ⟨-, cls', hk', hbelow⟩ := hhead.of_singleton
      obtain rfl := FieldKind.embedded.inj (hk.symm.trans hk')
      exact ihInner hinner (hbelow hmem s hs)
    · exact ihTail hrest htail
  | case5 path f fs hf hk ih =>
    obtain ⟨rest, hrest, -⟩ := bind_eq_ok.1 h
    intro hfault
    rcases hfault.head_or_tail with hhead | htail
    · obtain ⟨-, cls, hk', -⟩ := hhead.of_singleton
      exact hk cls hk'
    · exact ih hrest htail
  | case6 path f fs hf ih =>
    intro hfault
    rcases hfault.head_or_tail with hhead | htail
    · exact hf hhead.of_singleton.1
    · exact ih h htail

/-- A plan cannot be expanded just where there is a fault. -/
theorem exists_expand_error_iff :
    (∃ e, cat.expand keep path fs = .error e) ↔ ∃ e, cat.Fault keep path fs e := by
  constructor
  · rintro ⟨e, he⟩
    exact ⟨e, fault_of_expand_error he⟩
  · rintro ⟨e, hfault⟩
    cases hresult : cat.expand keep path fs with
    | error e' => exact ⟨e', rfl⟩
    | ok es => exact absurd hfault (not_fault_of_expand_ok hresult)

/-- So fields do not stand in each other's way: they can be expanded together just where each can be
alone. -/
theorem exists_expand_ok_iff_forall : (∃ es, cat.expand keep path fs = .ok es) ↔
    ∀ f ∈ fs, ∃ es, cat.expand keep path [f] = .ok es := by
  -- expansion is total, so it succeeds where there is no fault
  have hsucceeds : ∀ fs : List Field, (∃ es, cat.expand keep path fs = .ok es) ↔
      ¬ ∃ e, cat.Fault keep path fs e := by
    intro fs
    rw [← exists_expand_error_iff]
    cases cat.expand keep path fs <;> simp
  simp only [hsucceeds]
  constructor
  · rintro hnone f hf ⟨e, hfault⟩
    exact hnone ⟨e, hfault.of_mem hf⟩
  · rintro hnone ⟨e, hfault⟩
    obtain ⟨f, hf, hfault⟩ := hfault.exists_mem
    exact hnone f hf ⟨e, hfault⟩

end Catalog

/-! ## Routines -/

/-- The class has a function of its own, one that is not generated, in the slot of a method. -/
def BringsOwn (c : Class) (method : String) : Prop :=
  ∃ i, (c.method? method).bind (·.implementation) = some i ∧ i.providedBy = c.name ∧
    i.source ≠ .generated

/-- Whether a generated routine of the class goes into what a field holds by value: the one that
copies to the device goes into every field, the one that brings state back into those that come
back. -/
def goesInto (c : Class) (f : Field) : Bool :=
  isGenerated c Root.cudafy.name || isGenerated c Root.decudafy.name && f.syncBack

/-- A slot that copies objects of a class with device copies is filled by the class itself, with a
function of its own or with a generated one. -/
theorem isGenerated_iff {d : Draft} {ds : List Draft} {c : Class} (h : Lineage (d :: ds) c)
    (hco : d.coprocessor = true) {method : String} (hcopy : method ∈ copyMethods) :
    isGenerated c method = true ↔ ¬ BringsOwn c method := by
  obtain ⟨i, himpl, hprovider⟩ := h.exists_copyImplementation hco hcopy
  have hgenerated : isGenerated c method = true ↔ i.source = .generated := by
    simp [isGenerated, himpl, hprovider]
  rw [hgenerated]
  constructor
  · rintro hsource ⟨j, hj, -, hother⟩
    exact hother (Option.some.inj (hj.symm.trans himpl) ▸ hsource)
  · intro hnone
    exact Classical.byContradiction fun hother => hnone ⟨i, himpl, hprovider, hother⟩

namespace Catalog

variable {cat : Catalog} {c : Class} {e : ModelError}

theorem toDevice_eq_error : cat.toDevice c = .error e ↔
    cat.expand (fun _ => true) [c.name] (cat.plan c.object).fields = .error e := by
  rw [toDevice, bind_eq_error]
  refine ⟨fun h => h.resolve_right ?_, .inl⟩
  rintro ⟨es, -, hpure⟩
  cases hpure

theorem fromDevice_eq_error : cat.fromDevice c = .error e ↔
    cat.expand (·.syncBack) [c.name] (cat.plan c.object).fields = .error e := by
  rw [fromDevice, bind_eq_error]
  refine ⟨fun h => h.resolve_right ?_, .inl⟩
  rintro ⟨es, -, hpure⟩
  cases hpure

/-- What is made only on a condition fails where it is to be made and cannot. -/
theorem optional_eq_error {b : Bool} {x : Except ModelError FunctionDef} :
    (if b then some <$> x else pure none) = .error e ↔ b = true ∧ x = .error e := by
  cases b with
  | true => cases x <;> simp [Functor.map, Except.map]
  | false => simp [pure, Except.pure]

/-- The routines of a class fail with a fault of its plan. -/
theorem fault_of_routines_error (h : cat.routines c = .error e) :
    cat.Fault (goesInto c) [c.name] (cat.plan c.object).fields e := by
  rw [routines_eq_bind] at h
  obtain h | ⟨forth, -, h⟩ := bind_eq_error.1 h
  · obtain ⟨hgen, h⟩ := optional_eq_error.1 h
    refine (fault_of_expand_error (toDevice_eq_error.1 h)).mono fun f _ => ?_
    rw [goesInto, hgen, Bool.true_or]
  · obtain h | ⟨back, -, h⟩ := bind_eq_error.1 h
    · obtain ⟨hgen, h⟩ := optional_eq_error.1 h
      refine (fault_of_expand_error (fromDevice_eq_error.1 h)).mono fun f hf => ?_
      rw [goesInto, hgen, hf, Bool.true_and, Bool.or_true]
    · cases h

/-- And they do fail where it has one. -/
theorem Fault.exists_routines_error
    (h : cat.Fault (goesInto c) [c.name] (cat.plan c.object).fields e) :
    ∃ e', cat.routines c = .error e' := by
  rw [routines_eq_bind]
  cases hforth : isGenerated c Root.cudafy.name with
  | true =>
    have hall : cat.Fault (fun _ => true) [c.name] (cat.plan c.object).fields e :=
      h.mono fun _ _ => rfl
    obtain ⟨e', he⟩ := exists_expand_error_iff.2 ⟨e, hall⟩
    exact ⟨e', bind_eq_error.2 (.inl (optional_eq_error.2 ⟨rfl, toDevice_eq_error.2 he⟩))⟩
  | false =>
    -- only fields that come back are gone into
    have hback : ∀ f : Field, goesInto c f = true →
        isGenerated c Root.decudafy.name = true ∧ f.syncBack = true := by
      intro f hf
      rwa [goesInto, hforth, Bool.false_or, Bool.and_eq_true] at hf
    obtain ⟨e', he⟩ := exists_expand_error_iff.2 ⟨e, h.mono fun f hf => (hback f hf).2⟩
    obtain ⟨f, -, hfault⟩ := h.exists_mem
    obtain ⟨hgen, -⟩ := hback f hfault.of_singleton.1
    refine ⟨e', bind_eq_error.2 (.inr ⟨none, rfl, bind_eq_error.2 (.inl ?_)⟩)⟩
    exact optional_eq_error.2 ⟨hgen, fromDevice_eq_error.2 he⟩

theorem exists_routines_error_iff : (∃ e, cat.routines c = .error e) ↔
    ∃ e, cat.Fault (goesInto c) [c.name] (cat.plan c.object).fields e :=
  ⟨fun ⟨e, he⟩ => ⟨e, fault_of_routines_error he⟩, fun ⟨_, h⟩ => h.exists_routines_error⟩

end Catalog

end ClassForge.Device

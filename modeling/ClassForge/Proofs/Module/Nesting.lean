import ClassForge.Proofs.Class.Nesting
import ClassForge.Proofs.Device.Nesting
import ClassForge.Proofs.Module.Contents
import ClassForge.Proofs.Module.Embedding
import ClassForge.Proofs.Module.Passed

/-!
# Nesting of generated bodies

Every function that is generated for a class has a body whose text is nested: its parentheses and
braces are balanced, and its directives do not come apart. Names in such a body are identifiers, and
loops and the descent into embedded objects put complete code together.
-/

namespace ClassForge.Module

open C C.Code ClassForge.Class Output

/-! ### Creating class objects -/

theorem complete_installCode {m : Method} (hm : m.WellNamed) : Complete (installCode m) := by
  have hdelegator : Neutral m.delegator.name := .of_isIdentifier (isIdentifier_delegator hm.name)
  have hslot : Neutral m.slot := EntryPoints.neutral_slot hm.name
  refine .blank (.line (.of_zero ?_) (.block (.line (.of_zero ?_) .nil) .nil))
  · simp [openBehind?, hdelegator.behind]
  · simp [openBehind?, hslot.behind]

theorem complete_classConstructorCode {c : Class} (hc : c.WellNamed) :
    Complete (classConstructorCode c) := by
  have hmetaclass := Neutral.of_isIdentifier hc.metaclass
  have hinstall : Complete (c.introduced.flatMap installCode) :=
    .flatMap fun m hm => complete_installCode (hc.methods m (List.mem_filter.1 hm).1)
  refine .line (.of_zero ?_) (.line (.literal rfl) (.line (.literal rfl) (.line (.literal rfl)
    (.blank (.line (.literal rfl) (.block (.line (.literal rfl) hinstall)
    (.blank (.line (.literal rfl) (.line (.literal rfl) .nil)))))))))
  simp [openBehind?, hmetaclass.behind]

theorem complete_publishCode {object handle : String} (hobject : isIdentifier object = true)
    (hhandle : isIdentifier handle = true) : Complete (publishCode object handle) := by
  have hobject := Neutral.of_isIdentifier hobject
  have hhandle := Neutral.of_isIdentifier hhandle
  have hchecked : Neutral "CUDA_CHECK_RETURN" := .literal rfl
  refine .blank (.whenDefined (.literal rfl) (.line (.literal rfl) (.block (.line (.of_zero ?_)
    (.line (.of_zero ?_) (.call hchecked (.line (.of_zero ?_) .nil) .nil))) .nil)) .nil)
  · simp [openBehind?, hobject.behind]
  · simp [openBehind?, hobject.behind, Name.rootMetaclass]
  · simp [openBehind?, hhandle.behind]

/-- What a creation names is an identifier each time. -/
structure Creation.WellNamed (n : Creation) : Prop where
  object : isIdentifier n.object = true
  metaclass : isIdentifier n.metaclass = true
  superclass : isIdentifier n.superclass = true
  pairs : ∀ p ∈ n.pairs, isIdentifier p.1 = true ∧ isIdentifier p.2 = true
  handle : ∀ h, n.handle = some h → isIdentifier h = true

theorem complete_creation {n : Creation} (h : n.WellNamed) : Complete n.code := by
  have hobject := Neutral.of_isIdentifier h.object
  have hmetaclass := Neutral.of_isIdentifier h.metaclass
  have hsuperclass := Neutral.of_isIdentifier h.superclass
  have hpairs : Complete (n.pairs.map fun p => Code.line (p.1 ++ ", " ++ p.2 ++ ",")) := by
    rw [List.map_eq_flatMap]
    refine .flatMap fun p hp => .line (.of_zero ?_) .nil
    obtain ⟨hentry, himplementation⟩ := h.pairs p hp
    simp [openBehind?, (Neutral.of_isIdentifier hentry).behind,
      (Neutral.of_isIdentifier himplementation).behind]
  have hnew : Neutral "myriad_new" := .literal rfl
  -- a guard around the block with the call, whose parenthesis is closed rows later
  refine .line (.of_zero ?_) (.block (.line (.of_zero ?_) (.deeper (.call hnew (.append
    (.line (.of_zero ?_) (.line (.of_zero ?_) (.line (.of_zero ?_) hpairs)))
    (.line (.literal rfl) .nil)) .nil) ?_)) .nil)
  · simp [openBehind?, hobject.behind]
  · simp [openBehind?, hobject.behind]
  · simp [openBehind?, hmetaclass.behind]
  · simp [openBehind?, hsuperclass.behind]
  · simp [openBehind?, hobject.behind]
  · split
    next handle hhandle => exact complete_publishCode h.object (h.handle handle hhandle)
    next => exact .nil

theorem isIdentifier_deviceHandle {object : String} (h : isIdentifier object = true) :
    isIdentifier (Name.deviceHandle object) = true :=
  isIdentifier_append h (by decide)

variable {c : Class}

/-- What a class publishes for the device is named after what it publishes. -/
theorem isIdentifier_handle {object handle : String} (h : isIdentifier object = true)
    (hhandle : (if c.coprocessor then some (Name.deviceHandle object) else none) = some handle) :
    isIdentifier handle = true := by
  split at hhandle
  · exact Option.some.inj hhandle ▸ isIdentifier_deviceHandle h
  · cases hhandle

theorem wellNamed_metaclassCreation (hc : c.WellNamed) : (metaclassCreation c).WellNamed where
  object := hc.metaclass
  metaclass := isIdentifier_metaclass hc.superclass
  superclass := isIdentifier_metaclass hc.superclass
  pairs := by
    have hmetaclass := isIdentifier_metaclass hc.name
    have hctor : isIdentifier (Name.delegator Name.rootObject Root.ctor.name) = true :=
      isIdentifier_delegator (by decide)
    have hcudafy : isIdentifier (Name.delegator Name.rootObject Root.cudafy.name) = true :=
      isIdentifier_delegator (by decide)
    intro p hp
    rcases List.mem_append.1 hp with hp | hp <;> split at hp
    · obtain rfl := List.mem_singleton.1 hp
      exact ⟨hctor, isIdentifier_append hmetaclass (by decide)⟩
    · cases hp
    · obtain rfl := List.mem_singleton.1 hp
      exact ⟨hcudafy, isIdentifier_append hmetaclass (by decide)⟩
    · cases hp
  handle := fun _ => isIdentifier_handle hc.metaclass

theorem wellNamed_classCreation (hc : c.WellNamed) : (classCreation c).WellNamed where
  object := hc.name
  metaclass := hc.metaclass
  superclass := hc.superclass
  pairs := by
    intro p hp
    obtain ⟨m, hm, hpair⟩ := List.mem_filterMap.1 hp
    obtain ⟨i, hi, rfl⟩ := Option.map_eq_some_iff.1 hpair
    have hm := hc.methods m (List.mem_filter.1 hm).1
    exact ⟨isIdentifier_delegator hm.name, hm.symbol i hi⟩
  handle := fun _ => isIdentifier_handle hc.name

theorem complete_initCode (hc : c.WellNamed) : Complete (initCode c) := by
  have hmetaclass := complete_creation (wellNamed_metaclassCreation hc)
  have hclass := complete_creation (wellNamed_classCreation hc)
  refine .append (.append (.append ?_ hmetaclass) (.blank .nil)) hclass
  split
  · exact .nil
  · have hinit : Neutral (Name.init c.superclassName) :=
      .of_isIdentifier (isIdentifier_prefixed (by decide) hc.superclass)
    refine .line (.of_zero ?_) (.blank .nil)
    simp [openBehind?, hinit.behind]

/-! ### Copy routines -/

open Device in
/-- The bodies of a class's copy routines are complete code. -/
theorem complete_of_mem_routines {cat : Catalog} {routines : Routines} (hcat : cat.WellNamed)
    (hc : c.WellNamed) (h : cat.routines c = .ok routines) :
    ∀ f ∈ routines.toDevice.toList ++ routines.fromDevice.toList ++ [routines.classToDevice],
      f.Complete := by
  obtain ⟨hforth, hback⟩ := Catalog.routines_ok h
  have hfs : ∀ f ∈ (cat.plan c.object).fields, f.WellNamed :=
    Catalog.wellNamed_of_mem_plan hc.object
  simp only [List.forall_mem_append, Option.mem_toList, List.forall_mem_singleton]
  refine ⟨⟨fun f hf => ?_, fun f hf => ?_⟩, ?_⟩
  · obtain ⟨all, hall, hbody⟩ := Catalog.toDevice_ok (hforth f hf)
    exact ⟨_, hbody, complete_toDeviceCode hc.name ((Catalog.expand_ok hall).complete_allToDevice
      hcat hfs (.literal rfl) (.literal rfl) (.literal rfl))⟩
  · obtain ⟨back, hexpand, hbody⟩ := Catalog.fromDevice_ok (hback f hf)
    exact ⟨_, hbody, complete_fromDeviceCode hc.name
      ((Catalog.expand_ok hexpand).complete_allFromDevice hcat hfs (.literal rfl) (.literal rfl))⟩
  · rw [classToDevice_eq h]
    exact ⟨_, rfl, complete_classToDeviceCode hc⟩

/-! ### Modules -/

/-- The classes that a module can import whose names were checked, all the way up. -/
inductive Written : Class → Prop where
  | root : Written rootClass
  | built {b : Builder} {m : Module} {u : ClassUnit} (himports : ∀ c ∈ b.imports, Written c)
    (hdrafts : ∀ d ∈ b.drafts, d.Written) (hbuild : b.build = .ok m) (hu : u ∈ m.classes) :
    Written u.cls

/-- Resolving drafts keeps to checked names and complete entry points. -/
theorem resolveAll_wellNamed {scope : List Class} {e : EntryPoints} {ds : List Draft}
    {rs : List Resolved} (hscope : ∀ c ∈ scope, c.WellNamed) (hds : ∀ d ∈ ds, d.Written)
    (he : e.Reached) (h : resolveAll scope e ds = .ok rs) :
    ∀ r ∈ rs, r.cls.WellNamed ∧ ∀ x ∈ r.entries, x.Complete := by
  induction ds generalizing scope e rs with
  | nil =>
    cases h
    simp
  | cons d ds ih =>
    obtain ⟨base, r, e', rs', hbase, hres, hrest, rfl⟩ := resolveAll_cons_ok h
    obtain ⟨hd, hds⟩ := List.forall_mem_cons.1 hds
    have hr : r.cls.WellNamed := (EntryPoints.resolve_ok (e := e) (by rw [hres])).1.wellNamed hd
      (hscope base (List.mem_of_find?_eq_some hbase))
    obtain ⟨hgiven, he'⟩ := he.resolve hd hres
    -- names of the new class were checked, those of its superclass before that
    refine List.forall_mem_cons.2
      ⟨⟨hr, fun x hx => (hgiven r rfl x hx).complete⟩, ih (fun c hc => ?_) hds he' hrest⟩
    rcases List.mem_append.1 hc with hold | hnew
    · exact hscope c hold
    · exact List.mem_singleton.1 hnew ▸ hr

namespace Stages

variable {b : Builder} {m : Module}

theorem wellNamed_scope (himports : ∀ c ∈ b.imports, ∀ a ∈ c.chain, a.WellNamed) :
    ∀ c ∈ b.scope, c.WellNamed :=
  fun c hc => (forall_mem_scope wellNamed_rootClass himports c hc).1

theorem wellNamed_resolved (s : Stages b m)
    (himports : ∀ c ∈ b.imports, ∀ a ∈ c.chain, a.WellNamed) (hdrafts : ∀ d ∈ b.drafts, d.Written) :
    ∀ r ∈ s.resolved, r.cls.WellNamed ∧ ∀ x ∈ r.entries, x.Complete :=
  resolveAll_wellNamed (wellNamed_scope himports)
    (fun d hd => hdrafts d ((order_ok s.ordered).1.subset hd)) .empty s.resolves

end Stages

theorem Written.wellNamed (h : Written c) : ∀ a ∈ c.chain, a.WellNamed := by
  induction h with
  | root =>
    intro a ha
    obtain rfl : a = rootClass := by simpa [rootClass, chain] using ha
    exact wellNamed_rootClass
  | @built b m u himports hdrafts hbuild hu ih =>
    obtain ⟨s⟩ := build_ok hbuild
    refine s.forall_chain wellNamed_rootClass ih (fun v hv => ?_) u hu
    obtain ⟨r, hr, hunit⟩ := s.exists_unitOf hv
    rw [(unitOf_ok hunit).1]
    exact (s.wellNamed_resolved ih hdrafts r hr).1

section Build

variable {b : Builder} {m : Module} {u : ClassUnit} {f : FunctionDef}

theorem complete_of_mem_generatedFunctions (himports : ∀ c ∈ b.imports, Written c)
    (hdrafts : ∀ d ∈ b.drafts, d.Written) (hbuild : b.build = .ok m) (hu : u ∈ m.classes)
    (hf : f ∈ generatedFunctions u) : f.Complete := by
  obtain ⟨s⟩ := build_ok hbuild
  have hscope := Stages.wellNamed_scope fun c hc => (himports c hc).wellNamed
  have hresolved := s.wellNamed_resolved (fun c hc => (himports c hc).wellNamed) hdrafts
  obtain ⟨r, hr, hunit⟩ := s.exists_unitOf hu
  obtain ⟨-, hentries, -, hctor, hinit, -, hroutines⟩ := unitOf_ok hunit
  obtain ⟨hcls, hcomplete⟩ := hresolved r hr
  simp only [generatedFunctions, List.mem_append, Option.mem_toList, List.mem_singleton] at hf
  -- copy routines, the two kinds of entry points, the class constructor and the init routine
  rcases hf with (((hf | hf) | hf) | hf) | rfl
  · obtain ⟨routines, hsome, hf⟩ := List.mem_flatMap.1 hf
    refine complete_of_mem_routines (fun cls t ht => ?_) hcls (hroutines routines ?_) f hf
    · rw [layout?_catalogOf s.toResolves.names_nodup] at ht
      obtain ⟨c, hc, -, -, rfl⟩ := ht
      rcases List.mem_append.1 hc with hc | hc
      · exact (hscope c hc).object
      · obtain ⟨r', hr', rfl⟩ := List.mem_map.1 hc
        exact (hresolved r' hr').1.object
    · exact Option.mem_toList.1 hsome
  · obtain ⟨x, hx, rfl⟩ := List.mem_map.1 hf
    exact (hcomplete x (hentries ▸ hx)).delegator
  · obtain ⟨x, hx, rfl⟩ := List.mem_map.1 hf
    exact (hcomplete x (hentries ▸ hx)).superDelegator
  · rw [hctor, classConstructor] at hf
    split at hf
    · cases hf
    · obtain rfl := Option.some.inj hf
      exact ⟨_, rfl, complete_classConstructorCode hcls⟩
  · rw [hinit]
    exact ⟨_, rfl, complete_initCode hcls⟩

/-- The body of every function that is generated for a class of a module is code, and the writer is
as deep behind it as in front. In its text brackets and directives are nested, so that parentheses
and braces are balanced and none is closed in front of the one that opens it. -/
theorem nested_of_mem_generatedFunctions (himports : ∀ c ∈ b.imports, Written c)
    (hdrafts : ∀ d ∈ b.drafts, d.Written) (hbuild : b.build = .ok m) (hu : u ∈ m.classes)
    (hf : f ∈ generatedFunctions u) :
    ∃ code, f.body = .generated code ∧
      f.body.text = (Code.writeAll code { depth := 1 }).text ∧
      (Code.writeAll code { depth := 1 }).depth = 1 ∧
      Text.Nested (Text.marks f.body.text.toList) ∧
      ∀ k : Text.Bracket, Text.Balanced k.opens k.closes f.body.text.toList := by
  obtain ⟨code, hbody, hcode⟩ := complete_of_mem_generatedFunctions himports hdrafts hbuild hu hf
  have htext : f.body.text = bodyText code := by rw [hbody, Body.text]
  have hnested : Text.Nested (Text.marks f.body.text.toList) := htext ▸ hcode.nested_bodyText
  exact ⟨code, hbody, htext, depth_writeAll code _, hnested, Text.balanced_of_nested hnested⟩

end Build

theorem Sample.written_vehicles : ∀ d ∈ vehicles.drafts, d.Written := by
  have haction (name : String) (supply : Supply) (kind : MethodKind) (text : Option String)
      (hname : isIdentifier name = true)
      (h : MethodDef.define (action name supply).signature kind text = .ok (action name supply)) :
      (action name supply).Written :=
    { signature := .declare (Signature.declare_eq_ok.2 ⟨hname, rfl, rfl, fun _ => rfl, rfl⟩)
      params := List.forall_mem_singleton.2 rfl
      defined := ⟨kind, text, h⟩ }
  have hturn := haction "turn" _ .normal (some "wheel_turn") rfl rfl
  have hbrake := haction "brake" _ .verbatim (some "") rfl rfl
  refine List.forall_mem_cons.2 ⟨⟨?_, ?_⟩, List.forall_mem_singleton.2 ⟨?_, ?_⟩⟩
  · exact fun _ h => absurd h List.not_mem_nil
  · exact List.forall_mem_singleton.2 hturn
  · exact fun _ h => absurd h List.not_mem_nil
  · exact List.forall_mem_singleton.2 hbrake

theorem nested_of_mem_generatedFunctions_sample : ∃ m u, Sample.vehicles.build = .ok m ∧
    u ∈ m.classes ∧ u.name = "Cart" ∧ u.init ∈ generatedFunctions u ∧
    Text.Nested (Text.marks u.init.body.text.toList) ∧
    Text.Balanced '(' ')' u.init.body.text.toList := by
  obtain ⟨m, hbuild, u, hu, hname, -⟩ := Sample.build_vehicles
  have hinit : u.init ∈ generatedFunctions u := by simp [generatedFunctions]
  obtain ⟨-, -, -, -, hnested, hbalanced⟩ := nested_of_mem_generatedFunctions
    (fun c hc => absurd hc List.not_mem_nil) Sample.written_vehicles hbuild hu hinit
  exact ⟨m, u, hbuild, hu, hname, hinit, hnested, hbalanced .paren⟩

end ClassForge.Module

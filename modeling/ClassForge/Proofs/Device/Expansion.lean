import ClassForge.Device.Heap
import ClassForge.Device.Routine
import ClassForge.Proofs.Except

/-!
# Plans that can be expanded

An expansion exists where the object structs of all classes are known whose objects are held by
value, at any depth, and none of these classes comes back below itself. `Expands` says what an
expansion is, without the path that the recursion carries to notice a class that comes back.
-/

namespace ClassForge.Device

open C ClassForge.Class

namespace Catalog

variable {cat : Catalog} {keep : Field → Bool} {fs : List Field}

/-! ## Classes held by value -/

/-- Among the fields, or those of an object that they hold by value, at any depth, is an object of
the class by value. -/
inductive Holds (cat : Catalog) : List Field → String → Prop
  | direct {fs : List Field} {f : Field} {cls : String} (hf : f ∈ fs)
    (hk : f.kind = .embedded cls) : cat.Holds fs cls
  | within {fs : List Field} {f : Field} {cls inner : String} {s : StructType} (hf : f ∈ fs)
    (hk : f.kind = .embedded cls) (hs : cat.layout? cls = some s)
    (hinner : cat.Holds (cat.plan s).fields inner) : cat.Holds fs inner

theorem Holds.cons {f : Field} {cls : String} (h : cat.Holds fs cls) : cat.Holds (f :: fs) cls := by
  cases h with
  | direct hf hk => exact .direct (List.mem_cons_of_mem f hf) hk
  | within hf hk hs hinner => exact .within (List.mem_cons_of_mem f hf) hk hs hinner

/-- All classes are known whose objects the fields hold by value. None of them is a class of the
objects around, which `path` lists, and none holds an object of its own. -/
structure Grounded (cat : Catalog) (path : List String) (fs : List Field) : Prop where
  known : ∀ a, cat.Holds fs a → ∃ s, cat.layout? a = some s
  outside : ∀ a, cat.Holds fs a → a ∉ path
  acyclic : ∀ a s, cat.Holds fs a → cat.layout? a = some s → ¬ cat.Holds (cat.plan s).fields a

namespace Grounded

variable {path : List String} {f : Field}

theorem tail (hg : cat.Grounded path (f :: fs)) : cat.Grounded path fs where
  known a ha := hg.known a ha.cons
  outside a ha := hg.outside a ha.cons
  acyclic a s ha := hg.acyclic a s ha.cons

/-- So are the fields of an object that is held by value. -/
theorem inner {cls : String} {s : StructType} (hg : cat.Grounded path (f :: fs))
    (hk : f.kind = .embedded cls) (hs : cat.layout? cls = some s) :
    cat.Grounded (path ++ [cls]) (cat.plan s).fields := by
  have hheld : cat.Holds (f :: fs) cls := .direct List.mem_cons_self hk
  have hwithin : ∀ a, cat.Holds (cat.plan s).fields a → cat.Holds (f :: fs) a :=
    fun a ha => .within List.mem_cons_self hk hs ha
  refine ⟨fun a ha => hg.known a (hwithin a ha), fun a ha => ?_,
    fun a t ha => hg.acyclic a t (hwithin a ha)⟩
  intro hmem
  rcases List.mem_append.1 hmem with hmem | hmem
  · exact hg.outside a (hwithin a ha) hmem
  · obtain rfl := List.mem_singleton.1 hmem
    exact hg.acyclic a s hheld hs ha

end Grounded

/-! ## Plans on a heap -/

/-- Heaps have the catalog's plans of the classes whose objects the fields hold by value. -/
def PlansKnown (cat : Catalog) (h : Heap) (fs : List Field) : Prop :=
  ∀ a s, cat.Holds fs a → cat.layout? a = some s → h.plan? a = some (cat.plan s)

namespace PlansKnown

variable {h : Heap} {f : Field}

theorem tail (hp : cat.PlansKnown h (f :: fs)) : cat.PlansKnown h fs :=
  fun a s ha => hp a s ha.cons

theorem inner {cls : String} {s : StructType} (hp : cat.PlansKnown h (f :: fs))
    (hk : f.kind = .embedded cls) (hs : cat.layout? cls = some s) :
    cat.PlansKnown h (cat.plan s).fields :=
  fun a t ha => hp a t (.within List.mem_cons_self hk hs ha)

end PlansKnown

/-! ## Expansions -/

/-- What the fields that satisfy `keep` expand to. -/
inductive Expands (cat : Catalog) (keep : Field → Bool) : List Field → List Expanded → Prop
  | nil : Expands cat keep [] []
  | dropped {f : Field} {fs : List Field} {es : List Expanded} (hf : keep f = false)
    (htail : Expands cat keep fs es) : Expands cat keep (f :: fs) es
  | leaf {f : Field} {fs : List Field} {es : List Expanded} (hf : keep f = true)
    (hk : ∀ cls, f.kind ≠ .embedded cls) (htail : Expands cat keep fs es) :
    Expands cat keep (f :: fs) (.leaf f :: es)
  | embedded {f : Field} {fs : List Field} {cls : String} {s : StructType}
    {inner es : List Expanded} (hf : keep f = true) (hk : f.kind = .embedded cls)
    (hs : cat.layout? cls = some s) (hinner : Expands cat keep (cat.plan s).fields inner)
    (htail : Expands cat keep fs es) : Expands cat keep (f :: fs) (.embedded f inner :: es)

/-- Where no class comes back, the expansion exists. -/
theorem Grounded.exists_expand {path : List String} (hg : cat.Grounded path fs) :
    ∃ es, cat.expand keep path fs = .ok es ∧ cat.Expands keep fs es := by
  -- by the run of `expand`; its two errors need a class on the path or one without a layout
  fun_induction cat.expand keep path fs with
  | case1 path => exact ⟨[], rfl, .nil⟩
  | case2 path f fs hf cls hk hmem =>
    exact absurd hmem (hg.outside cls (.direct List.mem_cons_self hk))
  | case3 path f fs hf cls hk hmem hnone =>
    obtain ⟨s, hs⟩ := hg.known cls (.direct List.mem_cons_self hk)
    rw [hnone] at hs
    cases hs
  | case4 path f fs hf cls hk hmem s hs ihInner ihTail =>
    obtain ⟨inner, hinner, hexpands⟩ := ihInner (hg.inner hk hs)
    obtain ⟨es, hes, hrest⟩ := ihTail hg.tail
    rw [hinner, hes]
    exact ⟨.embedded f inner :: es, rfl, .embedded hf hk hs hexpands hrest⟩
  | case5 path f fs hf hk ih =>
    obtain ⟨es, hes, hrest⟩ := ih hg.tail
    rw [hes]
    exact ⟨.leaf f :: es, rfl, .leaf hf hk hrest⟩
  | case6 path f fs hf ih =>
    obtain ⟨es, hes, hrest⟩ := ih hg.tail
    exact ⟨es, hes, .dropped (eq_false_of_ne_true hf) hrest⟩

/-- What was expanded is an expansion. -/
theorem expand_ok {path : List String} {es : List Expanded}
    (h : cat.expand keep path fs = .ok es) : cat.Expands keep fs es := by
  fun_induction cat.expand keep path fs generalizing es with
  | case1 =>
    cases h
    exact .nil
  | case2 => cases h
  | case3 => cases h
  | case4 path f fs hf cls hk hmem s hs ihInner ihTail =>
    obtain ⟨inner, hinner, h⟩ := bind_eq_ok.1 h
    obtain ⟨rest, hrest, h⟩ := bind_eq_ok.1 h
    obtain rfl := pure_eq_ok.1 h
    exact .embedded hf hk hs (ihInner hinner) (ihTail hrest)
  | case5 path f fs hf hk ih =>
    obtain ⟨rest, hrest, h⟩ := bind_eq_ok.1 h
    obtain rfl := pure_eq_ok.1 h
    exact .leaf hf hk (ih hrest)
  | case6 path f fs hf ih => exact .dropped (eq_false_of_ne_true hf) (ih h)

/-- Otherwise a class holds itself by value, or its object struct is not known. -/
theorem expand_error {path : List String} {e : ModelError}
    (h : cat.expand keep path fs = .error e) :
    (∃ p, e = .embedsItself p) ∨ ∃ cls, e = .unknownLayout cls := by
  fun_induction cat.expand keep path fs with
  | case1 => cases h
  | case2 path f fs hf cls hk hmem =>
    cases h
    exact .inl ⟨_, rfl⟩
  | case3 path f fs hf cls hk hmem hnone =>
    cases h
    exact .inr ⟨cls, rfl⟩
  | case4 path f fs hf cls hk hmem s hs ihInner ihTail =>
    obtain h | ⟨inner, -, h⟩ := bind_eq_error.1 h
    · exact ihInner h
    · obtain h | ⟨es, -, h⟩ := bind_eq_error.1 h
      · exact ihTail h
      · cases h
  | case5 path f fs hf hk ih =>
    obtain h | ⟨es, -, h⟩ := bind_eq_error.1 h
    · exact ih h
    · cases h
  | case6 path f fs hf ih => exact ih h

/-- The routine that copies objects to the device is made of the expansion of all fields. -/
theorem toDevice_ok {c : Class} {g : FunctionDef} (h : cat.toDevice c = .ok g) :
    ∃ all, cat.expand (fun _ => true) [c.name] (cat.plan c.object).fields = .ok all ∧
      g.body = .generated (toDeviceCode c.name all) := by
  obtain ⟨all, hall, h⟩ := bind_eq_ok.1 h
  obtain rfl := pure_eq_ok.1 h
  exact ⟨all, hall, rfl⟩

/-- The routine that brings their state back is made of the expansion of the fields that come
back. -/
theorem fromDevice_ok {c : Class} {g : FunctionDef} (h : cat.fromDevice c = .ok g) :
    ∃ back, cat.expand (·.syncBack) [c.name] (cat.plan c.object).fields = .ok back ∧
      g.body = .generated (fromDeviceCode c.name back) := by
  obtain ⟨back, hback, h⟩ := bind_eq_ok.1 h
  obtain rfl := pure_eq_ok.1 h
  exact ⟨back, hback, rfl⟩

/-- What is made only on a condition was made in full where there is one. -/
theorem eq_ok_of_optional {b : Bool} {x : Except ModelError FunctionDef} {g : FunctionDef}
    (h : (if b then some <$> x else pure none) = .ok (some g)) : x = .ok g := by
  cases b with
  | true =>
    obtain ⟨g', hg, heq⟩ := map_eq_ok.1 h
    rwa [Option.some.inj heq] at hg
  | false => cases h

/-- The routines are made one after the other, each where it is generated. -/
theorem routines_eq_bind (c : Class) : cat.routines c =
    (if isGenerated c Root.cudafy.name then some <$> cat.toDevice c else pure none) >>=
    fun forth =>
    (if isGenerated c Root.decudafy.name then some <$> cat.fromDevice c else pure none) >>=
    fun back =>
      pure {
        plan := cat.plan c.object
        toDevice := forth
        fromDevice := back
        classToDevice :=
          localRoutine Root.cudafy (Name.classToDevice c.name) (classToDeviceCode c) } := by
  unfold routines
  cases isGenerated c Root.cudafy.name <;> cases isGenerated c Root.decudafy.name <;> rfl

/-- The generated ones among the routines of a class are those for its plan. -/
theorem routines_ok {c : Class} {routines : Routines} (h : cat.routines c = .ok routines) :
    (∀ g, routines.toDevice = some g → cat.toDevice c = .ok g) ∧
      ∀ g, routines.fromDevice = some g → cat.fromDevice c = .ok g := by
  rw [routines_eq_bind] at h
  obtain ⟨forth, hforth, h⟩ := bind_eq_ok.1 h
  obtain ⟨back, hback, h⟩ := bind_eq_ok.1 h
  obtain rfl := pure_eq_ok.1 h
  constructor
  · rintro g rfl
    exact eq_ok_of_optional hforth
  · rintro g rfl
    exact eq_ok_of_optional hback

/-- Where no class comes back below the class's objects, the class has its routines. The generated
ones among them are made of the expansions of its plan. -/
theorem Grounded.exists_routines {c : Class}
    (hg : cat.Grounded [c.name] (cat.plan c.object).fields) :
    ∃ routines all back, cat.routines c = .ok routines ∧
      cat.Expands (fun _ => true) (cat.plan c.object).fields all ∧
      cat.Expands (·.syncBack) (cat.plan c.object).fields back ∧
      (routines.toDevice = if isGenerated c Root.cudafy.name then
        some (localRoutine Root.cudafy (Name.implementation c.name Root.cudafy.name)
          (toDeviceCode c.name all)) else none) ∧
      routines.fromDevice = if isGenerated c Root.decudafy.name then
        some (localRoutine Root.decudafy (Name.implementation c.name Root.decudafy.name)
          (fromDeviceCode c.name back)) else none := by
  have hexpand : ∀ keep, ∃ es, cat.expand keep [c.name] (cat.plan c.object).fields = .ok es ∧
      cat.Expands keep (cat.plan c.object).fields es := fun _ => hg.exists_expand
  obtain ⟨all, hall, hexpandsAll⟩ := hexpand fun _ => true
  obtain ⟨back, hback, hexpandsBack⟩ := hexpand (·.syncBack)
  refine ⟨{
    plan := cat.plan c.object
    toDevice := if isGenerated c Root.cudafy.name then
      some (localRoutine Root.cudafy (Name.implementation c.name Root.cudafy.name)
        (toDeviceCode c.name all)) else none
    fromDevice := if isGenerated c Root.decudafy.name then
      some (localRoutine Root.decudafy (Name.implementation c.name Root.decudafy.name)
        (fromDeviceCode c.name back)) else none
    classToDevice := localRoutine Root.cudafy (Name.classToDevice c.name) (classToDeviceCode c) },
    all, back, ?_, hexpandsAll, hexpandsBack, rfl, rfl⟩
  rw [routines, toDevice, fromDevice, hall, hback]
  cases isGenerated c Root.cudafy.name <;> cases isGenerated c Root.decudafy.name <;> rfl

end Catalog

end ClassForge.Device

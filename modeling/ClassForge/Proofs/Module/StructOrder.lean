import ClassForge.Proofs.Class.Layout
import ClassForge.Proofs.Module.Clash
import ClassForge.Proofs.Module.Contents
import ClassForge.Proofs.Module.Files
import ClassForge.Proofs.Module.Superclass

/-!
# Structs are defined before they are held

A struct that holds another by value can only be defined behind it. The structs of a header stand in
the order in which classes are resolved, so the struct that another extends is always in front. The
structs that fields hold are in front exactly if the drafts come in such an order.
-/

namespace ClassForge

open C

/-! ## What is held by value -/

/-- The tag of the struct that a variable of the type holds by value, on its own or in an array. -/
def C.CType.heldTag? : CType → Option String
  | .struct tag => some tag
  | .array element _ => element.heldTag?
  | _ => none

/-- The tag of the struct that the variable holds by value. -/
def C.Variable.heldTag? (v : Variable) : Option String :=
  if v.pointer then none else v.type.heldTag?

namespace C.StructType

/-- The tags of the structs that the struct holds by value. -/
def heldTags (s : StructType) : List String :=
  s.fields.filterMap (·.heldTag?)

/-- The struct that another extends is the first of them. -/
theorem heldTags_extension (name : String) (base : StructType) (fields : List Variable) :
    (extension name base fields).heldTags = base.name :: fields.filterMap (·.heldTag?) :=
  rfl

end C.StructType

/-! ## Pieces that need others -/

/-- In a list of pieces that define names, each needs names only that are known or that a piece in
front of it defines. -/
def DefinedFirst {α : Type} (defines needs : α → List String) (known : List String)
    (l : List α) : Prop :=
  ∀ l₁ a l₂, l = l₁ ++ a :: l₂ → ∀ n ∈ needs a, n ∈ known ∨ n ∈ l₁.flatMap defines

namespace DefinedFirst

variable {α : Type} {defines needs : α → List String} {known : List String} {a : α} {l : List α}

@[simp] theorem nil : DefinedFirst defines needs known [] := by
  intro l₁ a l₂ h
  simp at h

/-- What the first piece defines is known to the rest. -/
@[simp] theorem cons_iff : DefinedFirst defines needs known (a :: l) ↔
    (∀ n ∈ needs a, n ∈ known) ∧ DefinedFirst defines needs (known ++ defines a) l := by
  constructor
  · intro h
    refine ⟨fun n hn => (h [] a l rfl n hn).resolve_right (by simp), fun l₁ x l₂ hsplit n hn => ?_⟩
    have hn := h (a :: l₁) x l₂ (by rw [hsplit, List.cons_append]) n hn
    rwa [List.flatMap_cons, List.mem_append, ← or_assoc, ← List.mem_append] at hn
  · rintro ⟨hfirst, hrest⟩ l₁ x l₂ hsplit n hn
    -- the item that needs a name is the first one, or it stands behind that
    cases l₁ with
    | nil =>
      obtain ⟨rfl, -⟩ := List.cons.inj hsplit
      exact .inl (hfirst n hn)
    | cons y l₁ =>
      obtain ⟨rfl, htail⟩ := List.cons.inj hsplit
      have hn := hrest l₁ x l₂ htail n hn
      rwa [List.flatMap_cons, List.mem_append, ← or_assoc, ← List.mem_append]

instance : ∀ (known : List String) (l : List α), Decidable (DefinedFirst defines needs known l)
  | _, [] => .isTrue nil
  | known, a :: l =>
    have := instDecidable (known ++ defines a) l
    decidable_of_iff _ cons_iff.symm

end DefinedFirst

/-! ## Structs of headers -/

namespace Output

/-- The struct that a piece of a file defines. -/
def Item.struct? : Item → Option StructType
  | .struct s => some s
  | _ => none

/-- The structs that a file defines, in order. -/
def definedStructs (items : List Item) : List StructType :=
  items.filterMap (·.struct?)

/-- A file defines the structs it needs first if its structs stand in such an order. -/
theorem definedFirst_items (needs : StructType → List String) {known : List String}
    {items : List Item} :
    DefinedFirst (fun i => i.struct?.toList.map (·.name)) (fun i => i.struct?.toList.flatMap needs)
        known items ↔
      DefinedFirst (fun s : StructType => [s.name]) needs known (definedStructs items) := by
  induction items generalizing known with
  | nil => simp [definedStructs]
  | cons i items ih =>
    rw [DefinedFirst.cons_iff, ih]
    cases hstruct : i.struct? with
    | none => simp [definedStructs, hstruct]
    | some s => simp [definedStructs, hstruct]

/-- A class's part of the header defines its structs, that of its objects first. -/
theorem definedStructs_classDeclarations (u : Module.ClassUnit) :
    definedStructs (classDeclarations u) = [u.cls.object, u.cls.metaclass] := by
  have hexterns : ∀ fs : List FunctionDef,
      (fs.map (.externFunction ·.signature)).filterMap Item.struct? = [] := by
    intro fs
    simp [Item.struct?]
  rw [definedStructs, classDeclarations, List.filterMap_append, hexterns, List.append_nil]
  rfl

/-- A header defines the structs of the module's classes, class by class, and no others. -/
theorem definedStructs_header {m : Module} (hkind : m.kind = .user) :
    definedStructs (header m) = m.classes.flatMap fun u => [u.cls.object, u.cls.metaclass] := by
  have hdeclared : definedStructs (header m) = definedStructs (declarations (header m)) := by
    rw [definedStructs, definedStructs, declarations, List.filterMap_filter]
    refine List.filterMap_congr fun i _ => ?_
    cases i <;> rfl
  have hclasses : definedStructs (m.classes.flatMap classDeclarations)
      = m.classes.flatMap fun u => [u.cls.object, u.cls.metaclass] := by
    simp only [← definedStructs_classDeclarations]
    exact List.filterMap_flatMap
  rw [hdeclared, declarations_header hkind, definedStructs, List.filterMap_append,
    ← definedStructs.eq_def (m.classes.flatMap _), hclasses]
  simp [Item.struct?]

end Output

/-! ## Structs of classes -/

namespace Class

/-- The tags of a class's structs. -/
def tags (c : Class) : List String :=
  [c.object.name, c.metaclass.name]

namespace Draft

/-- The tags that the structs of a draft's class have. -/
def tags (d : Draft) : List String :=
  [d.name, Name.metaclass d.name]

/-- The tags of the structs that the fields of a draft hold by value. -/
def heldTags (d : Draft) : List String :=
  d.fields.filterMap (·.heldTag?)

namespace Derives

variable {d : Draft} {base c : Class}

theorem tags_eq (h : d.Derives base c) : c.tags = d.tags := by
  rw [Class.tags, h.object_eq, h.metaclass_eq]
  rfl

theorem heldTags_object (h : d.Derives base c) :
    c.object.heldTags = base.object.name :: d.heldTags := by
  rw [h.object_eq]
  exact StructType.heldTags_extension ..

/-- Class structs declare slots, which are pointers to functions. -/
theorem heldTag?_metaclass (h : d.Derives base c) :
    ∀ f ∈ c.metaclass.declared, f.heldTag? = none := by
  rw [h.metaclass_eq]
  intro f hf
  obtain ⟨e, -, rfl⟩ := List.mem_map.1 hf
  rfl

theorem heldTags_metaclass (h : d.Derives base c) :
    c.metaclass.heldTags = [base.metaclass.name] := by
  have hslots := List.filterMap_eq_nil_iff.2 h.heldTag?_metaclass
  rw [h.metaclass_eq] at hslots ⊢
  exact (StructType.heldTags_extension ..).trans (congrArg (base.metaclass.name :: ·) hslots)

end Derives

end Draft

end Class

namespace Module

open ClassForge.Class Output

/-- The structs of resolved classes stand in the order in which their drafts were resolved, and the
structs that they extend are known or in front. So whether each needs only what is defined first is
a matter of what the drafts need. -/
theorem definedFirst_resolved {needs : StructType → List String} (needs' : Draft → List String)
    (hobject : ∀ {d base c}, Draft.Derives d base c →
      ∀ n ∈ needs c.object, n ∈ base.tags ∨ n ∈ needs' d)
    (hdraft : ∀ {d base c}, Draft.Derives d base c → ∀ n ∈ needs' d, n ∈ needs c.object)
    (hmetaclass : ∀ {d base c}, Draft.Derives d base c → ∀ n ∈ needs c.metaclass, n ∈ base.tags)
    {scope : List Class} {known : List String} {e : EntryPoints} {ds : List Draft}
    {rs : List Resolved} (hscope : ∀ c ∈ scope, ∀ n ∈ c.tags, n ∈ known)
    (h : resolveAll scope e ds = .ok rs) :
    DefinedFirst (fun s : StructType => [s.name]) needs known
        (rs.flatMap fun r => [r.cls.object, r.cls.metaclass]) ↔
      DefinedFirst Draft.tags needs' known ds := by
  -- by the drafts in the order of definition; what is known grows by the tags of each
  induction ds generalizing scope known e rs with
  | nil =>
    cases h
    simp
  | cons d ds ih =>
    obtain ⟨base, r, e', rs', hbase, hres, hrest, rfl⟩ := resolveAll_cons_ok h
    have hd : d.Derives base r.cls := (EntryPoints.resolve_ok (e := e) (by rw [hres])).1
    have hbaseTags := hscope base (List.mem_of_find?_eq_some hbase)
    have htags : known ++ [r.cls.object.name] ++ [r.cls.metaclass.name] = known ++ d.tags := by
      rw [List.append_assoc, ← hd.tags_eq]
      rfl
    have hscope' : ∀ c ∈ scope ++ [r.cls], ∀ n ∈ c.tags, n ∈ known ++ d.tags := by
      intro c hc n hn
      rcases List.mem_append.1 hc with hold | hnew
      · exact List.mem_append_left _ (hscope c hold n hn)
      · rw [List.mem_singleton.1 hnew, hd.tags_eq] at hn
        exact List.mem_append_right _ hn
    simp only [List.flatMap_cons, List.cons_append, List.nil_append, DefinedFirst.cons_iff, htags,
      ih hscope' hrest]
    constructor
    · rintro ⟨hneeds, -, hrest⟩
      exact ⟨fun n hn => hneeds n (hdraft hd n hn), hrest⟩
    · rintro ⟨hneeds, hrest⟩
      -- a superclass is in scope, so its tags are known; what else is needed comes from the draft
      refine ⟨fun n hn => ?_, fun n hn => ?_, hrest⟩
      · exact (hobject hd n hn).elim (hbaseTags n) (hneeds n)
      · exact List.mem_append_left _ (hbaseTags n (hmetaclass hd n hn))

/-- Resolved classes have structs of the tags that their drafts give them. -/
theorem flatMap_tags_of_derives {ds : List Draft} {rs : List Resolved}
    (h : List.Forall₂ (fun d r => ∃ base, Introduces d base r) ds rs) :
    ds.flatMap (·.tags) = rs.flatMap fun r => r.cls.tags := by
  induction h with
  | nil => rfl
  | cons hd _ ih =>
    obtain ⟨base, hintroduces⟩ := hd
    rw [List.flatMap_cons, List.flatMap_cons, ih, hintroduces.derives.tags_eq]

/-- Where the header defines a struct that holds a struct of one of the module's classes by value,
that struct is in scope or the header defines it in front. -/
def HeaderComplete (b : Builder) (m : Module) : Prop :=
  DefinedFirst (fun i : Item => i.struct?.toList.map (·.name))
    (fun i => i.struct?.toList.flatMap fun s =>
      s.heldTags.filter (· ∈ m.classes.flatMap (·.cls.tags)))
    (b.scope.flatMap (·.tags)) (header m)

instance (b : Builder) (m : Module) : Decidable (HeaderComplete b m) :=
  inferInstanceAs (Decidable (DefinedFirst ..))

/-- Each draft stands behind those of whose classes its fields hold a struct by value. -/
def HoldersLast (b : Builder) (ds : List Draft) : Prop :=
  DefinedFirst Draft.tags (fun d => d.heldTags.filter (· ∈ ds.flatMap (·.tags)))
    (b.scope.flatMap (·.tags)) ds

instance (b : Builder) (ds : List Draft) : Decidable (HoldersLast b ds) :=
  inferInstanceAs (Decidable (DefinedFirst ..))

theorem tags_mem_scope (b : Builder) :
    ∀ c ∈ b.scope, ∀ n ∈ c.tags, n ∈ b.scope.flatMap (·.tags) :=
  fun c hc _ hn => List.mem_flatMap.2 ⟨c, hc, hn⟩

section Built

variable {b : Builder} {m : Module} (s : Stages b m)
include s

theorem flatMap_cls {β : Type} (f : Class → List β) :
    m.classes.flatMap (fun u => f u.cls) = s.resolved.flatMap fun r => f r.cls := by
  simpa only [List.flatMap_map] using congrArg (List.flatMap f) (unitsOf_cls s.units)

theorem definedStructs_resolved :
    definedStructs (header m) = s.resolved.flatMap fun r => [r.cls.object, r.cls.metaclass] := by
  rw [definedStructs_header s.kind, flatMap_cls s fun c => [c.object, c.metaclass]]

/-- The struct that another extends is in scope or the header defines it in front. -/
theorem definedFirst_base :
    DefinedFirst (fun i : Item => i.struct?.toList.map (·.name))
      (fun i => i.struct?.toList.flatMap fun s => s.base?.toList.map (·.name))
      (b.scope.flatMap (·.tags)) (header m) := by
  rw [definedFirst_items fun s => s.base?.toList.map (·.name), definedStructs_resolved s]
  refine (definedFirst_resolved (fun _ => []) (fun hd n hn => ?_) (by simp) (fun hd n hn => ?_)
    (tags_mem_scope b) s.resolves).2 ?_
  · rw [hd.object_eq] at hn
    exact .inl (List.mem_cons.2 (.inl (List.mem_singleton.1 hn)))
  · rw [hd.metaclass_eq] at hn
    exact List.mem_cons_of_mem _ hn
  · exact fun _ _ _ _ n hn => absurd hn List.not_mem_nil

/-- The structs that the fields of objects hold are in front of them as the drafts that hold them
stand behind those that they hold. -/
theorem headerComplete_drafts (himports : ∀ c ∈ b.imports, ∃ ds, Lineage ds c) :
    HeaderComplete b m ↔ HoldersLast b s.drafts := by
  have htags : m.classes.flatMap (·.cls.tags) = s.drafts.flatMap (·.tags) := by
    rw [flatMap_cls s Class.tags, flatMap_tags_of_derives (s.toResolves.introduces himports)]
  rw [HeaderComplete, definedFirst_items, definedStructs_resolved s, HoldersLast, htags]
  refine definedFirst_resolved _ (fun hd n hn => ?_) (fun hd n hn => ?_) (fun hd n hn => ?_)
    (tags_mem_scope b) s.resolves
  · rw [hd.heldTags_object, List.mem_filter, List.mem_cons, or_and_right] at hn
    exact hn.imp (fun hbase => by simp [hbase.1, Class.tags]) List.mem_filter.2
  · rw [List.mem_filter] at hn
    rw [hd.heldTags_object]
    exact List.mem_filter.2 ⟨List.mem_cons_of_mem _ hn.1, hn.2⟩
  · rw [hd.heldTags_metaclass, List.mem_filter, List.mem_singleton] at hn
    simp [hn.1, Class.tags]

end Built

/-- The struct that another extends is in scope or in front of it, in every header, and no class
struct holds a struct otherwise. The structs that the fields of objects hold are in front exactly if
the drafts, in the order that the build puts them in for the sake of superclasses, stand behind
those that they hold. Drafts that come with superclasses first keep the order in which they come. -/
theorem headerComplete_iff {b : Builder} {m : Module}
    (himports : ∀ c ∈ b.imports, ∃ ds, Lineage ds c) (hbuild : b.build = .ok m) :
    m.Writes (m.name ++ ".h") (header m) ∧
    DefinedFirst (fun i : Item => i.struct?.toList.map (·.name))
      (fun i => i.struct?.toList.flatMap fun s => s.base?.toList.map (·.name))
      (b.scope.flatMap (·.tags)) (header m) ∧
    (∀ u ∈ m.classes, ∀ f ∈ u.cls.metaclass.declared, f.heldTag? = none) ∧
    (∀ ds, order b.drafts (b.scope.map (·.name)) = .ok ds →
      (HeaderComplete b m ↔ HoldersLast b ds)) ∧
    (SuperclassesFirst (b.scope.map (·.name)) b.drafts →
      (HeaderComplete b m ↔ HoldersLast b b.drafts)) := by
  obtain ⟨s⟩ := build_ok hbuild
  refine ⟨writes_header _, definedFirst_base s, fun u hu => ?_, fun ds hds => ?_, fun hfirst => ?_⟩
  · obtain ⟨r, hr, hunit⟩ := s.exists_unitOf hu
    obtain ⟨d, -, base, hintroduced⟩ := exists_of_forall₂ (s.toResolves.introduces himports) hr
    rw [(unitOf_ok hunit).1]
    exact hintroduced.derives.heldTag?_metaclass
  · rw [headerComplete_drafts s himports, Except.ok.inj (hds.symm.trans s.ordered)]
  · obtain ⟨-, -, hall⟩ := order_ok s.ordered
    obtain ⟨-, -, hstable⟩ := order_follows s.ordered
    rw [headerComplete_drafts s himports, hstable (hfirst.follows fun d hd => (hall d hd).2)]

namespace Sample

/-- A class of objects that hold an object of another by value, and that other class behind it. -/
def crates : Builder where
  config := { name := "crates" }
  drafts := [{ name := "Crate", fields := [{ name := "lid", type := .struct "Lid" }] },
    { name := "Lid" }]

/-- The same classes, the one that is held first. -/
def lids : Builder :=
  { crates with drafts := crates.drafts.reverse }

end Sample

theorem headerComplete_iff_sample : ∃ m, Sample.lids.build = .ok m ∧
    definedStructs (header m) ≠ [] ∧ HeaderComplete Sample.lids m := by
  have hsorted : sortByName Sample.lids.scope = [rootClass] := List.mergeSort_singleton rootClass
  obtain ⟨m, hbuild, hstructs⟩ : ∃ m, Sample.lids.build = .ok m ∧
      definedStructs (header m) ≠ [] := by
    refine exists_of_any_toOption ?_
    rw [Builder.build, hsorted]
    decide +kernel
  obtain ⟨ds, hordered, hlast⟩ : ∃ ds, order Sample.lids.drafts
      (Sample.lids.scope.map (·.name)) = .ok ds ∧ HoldersLast Sample.lids ds :=
    exists_of_any_toOption (by decide +kernel)
  obtain ⟨-, -, -, hcomplete, -⟩ := headerComplete_iff (b := Sample.lids)
    (fun _ hc => absurd hc List.not_mem_nil) hbuild
  exact ⟨m, hbuild, hstructs, (hcomplete ds hordered).2 hlast⟩

/-- Where the holder comes first its struct uses one that the header defines behind it. -/
theorem crates_incomplete : ∃ m, Sample.crates.build = .ok m ∧
    (definedStructs (header m)).map (·.name) = ["Crate", "CrateClass", "Lid", "LidClass"] ∧
    (∃ s ∈ definedStructs (header m), s.name = "Crate" ∧ "Lid" ∈ s.heldTags) ∧
    ¬ HeaderComplete Sample.crates m := by
  have hsorted : sortByName Sample.crates.scope = [rootClass] := List.mergeSort_singleton rootClass
  refine exists_of_any_toOption ?_
  rw [Builder.build, hsorted]
  decide +kernel

end Module

end ClassForge

import ClassForge.Proofs.Class.Accepted
import ClassForge.Proofs.Class.Layout
import ClassForge.Proofs.Class.Supply

/-!
# Drafts that can be resolved

A draft is refused for what its author wrote, and not for what is derived from it. Main statement:
of accepted methods, on top of a class that comes from the root, a draft is resolved just where it
is `Resolvable`; each fault is for a condition of these that does not hold, and names what breaks
it. What generated code adds, the slots, the typedefs and the entry points, cannot fail: a class
struct is laid out unless its own name is no identifier.
-/

namespace ClassForge.Class

open C

/-! ## Conditions and faults -/

/-- The names of the entry points of a definition that is new in a class. -/
def MethodDef.entryNames (cls : String) (f : MethodDef) : List String :=
  [Name.delegator cls f.name, Name.superDelegator f.name]

/-- The entry under a name is filled by the table that a draft gives its class: the draft itself
implements it, or it is inherited with an implementation, or a copy routine is generated for it. -/
def Draft.Fills (d : Draft) (base : Class) (method : String) : Prop :=
  (∃ f ∈ d.methods, f.name = method ∧ f.supply ≠ .nothing) ∨
    (∃ m ∈ base.methods, m.name = method ∧ m.implementation.isSome = true) ∨
    d.coprocessor = true ∧ method ∈ copyMethods

/-- What has to hold of a draft for its class to be resolved on top of another. -/
structure Draft.Resolvable (d : Draft) (base : Class) : Prop where
  single : d.superclasses.length ≤ 1
  superclass : d.superclass = base.name
  names : (d.methods.map (·.name)).Nodup
  types : ∀ f ∈ d.methods, ∀ m ∈ base.methods, m.name = f.name →
    m.signature.compatible f.signature = true
  entryNames : ((newDefs base.methods d.methods).flatMap (·.entryNames d.name)).Nodup
  entryNames_new : ∀ n ∈ (newDefs base.methods d.methods).flatMap (·.entryNames d.name),
    n ∉ base.methods.flatMap (·.entryNames)
  filled : d.isAbstract = false → ∀ n ∈ base.methods.map (·.name) ++ d.methods.map (·.name),
    d.Fills base n
  name : isIdentifier d.name = true
  storable : ∀ f ∈ d.fields, f.isVoid = false ∧ f.quals.storage = none
  fieldNames : (d.fields.map (·.name)).Nodup
  fieldNames_new : ∀ f ∈ d.fields, f.name ≠ StructType.baseField ∧ ¬ base.object.HasField f.name

/-- A fault that a draft is refused for, with what is wrong about the draft. -/
inductive Draft.Refused (d : Draft) (base : Class) : ModelError → Prop
  | superclasses (hmany : 1 < d.superclasses.length) :
    Refused d base (.severalSuperclasses d.name d.superclasses)
  | superclass (hother : d.superclass ≠ base.name) :
    Refused d base (.unknownSuperclass d.name d.superclass)
  | repeated {front rest : List MethodDef} {f : MethodDef} (hsplit : d.methods = front ++ f :: rest)
    (hname : f.name ∈ front.map (·.name)) : Refused d base (.duplicateMethod d.name f.name)
  | types {f : MethodDef} {m : Method} (hf : f ∈ d.methods) (hm : m ∈ base.methods)
    (hname : m.name = f.name) (htypes : m.signature.compatible f.signature = false) :
    Refused d base
      (.signatureMismatch d.name f.name m.introducedBy m.signature.text f.signature.text)
  | entryPoint {front rest : List MethodDef} {f : MethodDef} {n : String}
    (hsplit : newDefs base.methods d.methods = front ++ f :: rest)
    (hn : n ∈ f.entryNames d.name)
    (hused : n ∈ base.methods.flatMap (·.entryNames) ++ front.flatMap (·.entryNames d.name)) :
    Refused d base (.duplicateMethod d.name n)
  | empty {n : String} (hconcrete : d.isAbstract = false)
    (hn : n ∈ base.methods.map (·.name) ++ d.methods.map (·.name)) (hempty : ¬ d.Fills base n) :
    Refused d base (.missingImplementation d.name n)
  | name {tag : String} (hname : isIdentifier d.name = false)
    (htag : tag = d.name ∨ tag = Name.metaclass d.name) :
    Refused d base (.type (.badName .structTag tag))
  | void {f : Variable} (hf : f ∈ d.fields) (hvoid : f.isVoid = true) :
    Refused d base (.type (.voidVariable "field" f.name))
  | storage {f : Variable} (hf : f ∈ d.fields) (hstorage : f.quals.storage.isSome = true) :
    Refused d base (.type (.storageOnVariable "field" f.name))
  | field {front rest : List Variable} {f : Variable} {declaredIn : String}
    (hsplit : d.fields = front ++ f :: rest)
    (hused : f.name ∈ front.map (·.name) ∨ f.name = StructType.baseField ∨
      base.object.HasField f.name) :
    Refused d base (.type (.duplicateField d.name f.name declaredIn))

/-- In front of an element whose key is taken, keys repeat. -/
theorem not_nodup_of_split {α β : Type} {key : α → β} {l front rest : List α} {a : α}
    (hsplit : l = front ++ a :: rest) (hkey : key a ∈ front.map key) : ¬ (l.map key).Nodup := by
  intro h
  rw [hsplit, List.map_append, List.map_cons] at h
  exact (List.nodup_append.1 h).2.2 _ hkey _ List.mem_cons_self rfl

/-- What is refused for a fault cannot be resolved. -/
theorem Draft.Refused.not_resolvable {d : Draft} {base : Class} {e : ModelError}
    (h : d.Refused base e) : ¬ d.Resolvable base := by
  intro hd
  -- each fault breaks one of the conditions
  cases h with
  | superclasses hmany => exact absurd hd.single (Nat.not_le_of_lt hmany)
  | superclass hother => exact hother hd.superclass
  | repeated hsplit hname => exact not_nodup_of_split hsplit hname hd.names
  | types hf hm hname htypes =>
    rw [hd.types _ hf _ hm hname] at htypes
    cases htypes
  | @entryPoint front rest f n hsplit hn hused =>
    have hnew := hd.entryNames_new n
    have hnodup := hd.entryNames
    rw [hsplit, List.flatMap_append, List.flatMap_cons] at hnew hnodup
    -- the name is used above, or by a definition in front
    rcases List.mem_append.1 hused with hbase | hfront
    · exact hnew (List.mem_append_right _ (List.mem_append_left _ hn)) hbase
    · exact (List.nodup_append.1 hnodup).2.2 n hfront n (List.mem_append_left _ hn) rfl
  | empty hconcrete hn hempty => exact hempty (hd.filled hconcrete _ hn)
  | name hname _ =>
    rw [hd.name] at hname
    cases hname
  | void hf hvoid =>
    rw [(hd.storable _ hf).1] at hvoid
    cases hvoid
  | storage hf hstorage =>
    rw [(hd.storable _ hf).2] at hstorage
    cases hstorage
  | @field front rest f declaredIn hsplit hused =>
    rcases hused with hfront | hbase | hchain
    · exact not_nodup_of_split hsplit hfront hd.fieldNames
    · exact (hd.fieldNames_new f (hsplit ▸ by simp)).1 hbase
    · exact (hd.fieldNames_new f (hsplit ▸ by simp)).2 hchain

/-! ## Slots that are filled -/

theorem implementationOf_isSome {cls : String} {f : MethodDef} :
    (implementationOf cls f).isSome = true ↔ f.supply ≠ .nothing := by
  unfold implementationOf
  cases f.supply <;> simp

theorem Method.boundBy_isSome {cls : String} {ds : List MethodDef} {m : Method}
    (hnames : (ds.map (·.name)).Nodup) :
    (m.boundBy cls ds).implementation.isSome = true ↔
      (∃ f ∈ ds, f.name = m.name ∧ f.supply ≠ .nothing) ∨ m.implementation.isSome = true := by
  have hbound : (m.boundBy cls ds).implementation
      = ((ds.find? (·.name == m.name)).bind (implementationOf cls)).or m.implementation := rfl
  rw [hbound, Option.isSome_or, Bool.or_eq_true]
  -- what the class above supplies stays where the definitions supply nothing
  refine or_congr_left ?_
  constructor
  · intro h
    obtain ⟨i, hi⟩ := Option.isSome_iff_exists.1 h
    obtain ⟨f, hfind, hf⟩ := Option.bind_eq_some_iff.1 hi
    exact ⟨f, List.mem_of_find?_eq_some hfind, key_of_find? (f := MethodDef.name) hfind,
      implementationOf_isSome.1 (Option.isSome_iff_exists.2 ⟨i, hf⟩)⟩
  · rintro ⟨f, hf, hname, hsupply⟩
    rw [← hname, find?_key_of_mem hnames hf]
    exact implementationOf_isSome.2 hsupply

theorem Draft.copied_isSome {d : Draft} {m : Method} :
    (d.copied m).implementation.isSome = true ↔ m.implementation.isSome = true ∨
      d.coprocessor = true ∧ m.introducedBy = Name.rootObject ∧ m.name ∈ copyMethods := by
  by_cases hco : d.coprocessor = true
  · rw [copied, if_pos hco, Method.bindCopy]
    split
    next hslot => simp [hco, hslot.1, hslot.2.1]
    next hslot =>
      refine ⟨.inl, ?_⟩
      rintro (hsome | ⟨-, hroot, hcopy⟩)
      · exact hsome
      · -- the class keeps what it provides itself, and then the slot is not empty
        have hprovided : m.providedBy d.name = true := by simpa [hroot, hcopy] using hslot
        obtain ⟨i, hi, -⟩ := Option.any_eq_true _ _ |>.1 hprovided
        exact Option.isSome_iff_exists.2 ⟨i, hi⟩
  · simp [copied, hco]

/-- With one superclass, the right one, a draft is resolved in three steps: the table, the class
struct and the object struct. -/
theorem Draft.resolveClass_eq {d : Draft} {base : Class} (hsingle : d.superclasses.length ≤ 1)
    (hsuper : d.superclass = base.name) : d.resolveClass base = do
      let t ← d.table base
      let metaclass ← ModelError.ofType <| StructType.layOut (Name.metaclass d.name)
        (some base.metaclass) (t.introduced.map (·.slotField))
      let object ← ModelError.ofType <| StructType.layOut d.name (some base.object) d.fields
      let info : ClassInfo :=
        { name := d.name, object, metaclass, methods := t.entries
          coprocessor := d.coprocessor, isAbstract := d.isAbstract }
      return (.derived info base, t) := by
  have hmany : ¬ 1 < d.superclasses.length := Nat.not_lt_of_le hsingle
  simp only [resolveClass, hmany, hsuper, if_false, ne_eq, not_true_eq_false]

namespace Lineage

variable {ds : List Draft} {base : Class} {d : Draft}

theorem defineAll_of_resolve {entries : EntryPoints} {r : Resolved}
    (hres : (entries.resolve d base).1 = .ok r) :
    ∃ t, Table.defineAll d.name { inherited := base.methods } [] d.methods = .ok t := by
  obtain ⟨hd, -⟩ := EntryPoints.resolve_ok hres
  unfold EntryPoints.resolve at hres
  cases hclass : d.resolveClass base with
  | error e =>
    rw [hclass] at hres
    cases hres
  | ok ct =>
    rw [Draft.resolveClass_eq hd.single hd.superclass] at hclass
    obtain ⟨t, htable, -⟩ := bind_eq_ok.1 hclass
    obtain ⟨t₀, hdef, -⟩ := bind_eq_ok.1 htable
    exact ⟨t₀, hdef⟩

theorem inherit_isSome_iff_fills (h : Lineage ds base) (hnames : (d.methods.map (·.name)).Nodup)
    {m : Method} (hm : m ∈ base.methods) :
    (d.inherit m).implementation.isSome = true ↔ d.Fills base m.name := by
  rw [Draft.inherit, Draft.copied_isSome, Method.boundBy_isSome hnames, or_assoc]
  refine or_congr_right (or_congr ?_ (and_congr_right fun _ => ?_))
  · refine ⟨fun hsome => ⟨m, hm, rfl, hsome⟩, ?_⟩
    rintro ⟨m', hm', hname, hsome⟩
    rwa [eq_of_key_eq h.names_nodup hm' hm hname] at hsome
  · refine ⟨fun hslot => hslot.2, fun hcopy => ⟨?_, hcopy⟩⟩
    exact h.introducedBy_of_mem_copyMethods (m := m) hm hcopy

/-- A new entry is filled by its own definition alone. -/
theorem introduce_isSome_iff_fills (h : Lineage ds base)
    (hnames : (d.methods.map (·.name)).Nodup) {f : MethodDef}
    (hf : f ∈ newDefs base.methods d.methods) :
    (f.introduce d.name).implementation.isSome = true ↔ d.Fills base f.name := by
  obtain ⟨hmem, hnew⟩ := mem_newDefs.1 hf
  refine implementationOf_isSome.trans ⟨fun hsupply => .inl ⟨f, hmem, rfl, hsupply⟩, ?_⟩
  rintro (⟨f', hf', hname, hsupply⟩ | ⟨m, hm, hname, -⟩ | ⟨-, hcopy⟩)
  · rwa [eq_of_key_eq hnames hf' hmem hname] at hsupply
  · exact absurd hname (hnew m hm)
  · obtain ⟨m, hm, hname⟩ := h.exists_of_mem_copyMethods hcopy
    exact absurd hname (hnew m hm)

/-- Which entries of the table of a draft's class are filled. -/
theorem isSome_iff_fills (h : Lineage ds base) (hnames : (d.methods.map (·.name)).Nodup)
    {m : Method} (hm : m ∈ base.methods.map d.inherit ++ d.added base.methods) :
    m.name ∈ base.methods.map (·.name) ++ d.methods.map (·.name) ∧
      (m.implementation.isSome = true ↔ d.Fills base m.name) := by
  rw [h.added_eq] at hm
  rcases List.mem_append.1 hm with hold | hadded
  · obtain ⟨m₀, hm₀, rfl⟩ := List.mem_map.1 hold
    rw [Draft.name_inherit]
    exact ⟨List.mem_append_left _ (List.mem_map_of_mem hm₀), h.inherit_isSome_iff_fills hnames hm₀⟩
  · obtain ⟨f, hf, rfl⟩ := List.mem_map.1 hadded
    exact ⟨List.mem_append_right _ (List.mem_map_of_mem (mem_newDefs.1 hf).1),
      h.introduce_isSome_iff_fills hnames hf⟩

/-- Every name that the table has or the draft defines is that of an entry of the class's table. -/
theorem exists_entry_of_name (h : Lineage ds base) {n : String}
    (hn : n ∈ base.methods.map (·.name) ++ d.methods.map (·.name)) :
    ∃ m ∈ base.methods.map d.inherit ++ d.added base.methods, m.name = n := by
  have hinherited : ∀ m ∈ base.methods,
      ∃ m' ∈ base.methods.map d.inherit ++ d.added base.methods, m'.name = m.name := fun m hm =>
    ⟨d.inherit m, List.mem_append_left _ (List.mem_map_of_mem hm), d.name_inherit m⟩
  rcases List.mem_append.1 hn with hold | hdef
  · obtain ⟨m, hm, rfl⟩ := List.mem_map.1 hold
    exact hinherited m hm
  · obtain ⟨f, hf, rfl⟩ := List.mem_map.1 hdef
    -- a definition adds an entry or is for an inherited one
    by_cases hnew : ∀ m ∈ base.methods, m.name ≠ f.name
    · rw [h.added_eq]
      exact ⟨f.introduce d.name, List.mem_append_right _
        (List.mem_map_of_mem (mem_newDefs.2 ⟨hf, hnew⟩)), f.name_introduce d.name⟩
    · obtain ⟨m, hm, hname⟩ : ∃ m ∈ base.methods, m.name = f.name := by simpa using hnew
      rw [← hname]
      exact hinherited m hm

/-! ## Class structs -/

theorem not_hasField_slot (h : Lineage ds base) {method : String}
    (hnew : ∀ m ∈ base.methods, m.name ≠ method) :
    ¬ base.metaclass.HasField (Name.slot method) := by
  rintro ⟨s, hs, f, hf, hname⟩
  have hslot : f ∈ slotFields base.metaclass := by
    refine List.mem_flatMap.2 ⟨s, List.mem_reverse.2 hs, List.mem_filter.2 ⟨hf, ?_⟩⟩
    exact decide_eq_true (hname ▸ Name.slot_not_mem_headerNames method)
  rw [h.slotFields_eq] at hslot
  obtain ⟨m, hm, rfl⟩ := List.mem_map.1 hslot
  exact hnew m hm (Name.slot_inj.1 hname)

/-- The slots that a draft adds can always be laid out behind those of the class struct above. -/
theorem checkFields_slots (h : Lineage ds base) (hnames : (d.methods.map (·.name)).Nodup)
    (name : String) : StructType.checkFields name (some base.metaclass) []
      ((d.added base.methods).map (·.slotField)) = .ok () := by
  refine StructType.checkFields_eq_ok.2 ⟨fun f hf => ?_, ?_⟩
  · obtain ⟨m, hm, rfl⟩ := List.mem_map.1 hf
    rw [h.added_eq] at hm
    obtain ⟨g, hg, rfl⟩ := List.mem_map.1 hm
    refine ⟨rfl, List.not_mem_nil, fun hbase => ?_, h.not_hasField_slot (mem_newDefs.1 hg).2⟩
    -- no slot is named like a field of the root's class struct, such as the embedded one
    have hheader : Name.slot g.name ∈ headerNames := by
      rw [show Name.slot g.name = "_" from hbase]
      decide
    exact Name.slot_not_mem_headerNames g.name hheader
  · -- slots differ because the methods' names do
    have hinj : Function.Injective Name.slot := fun _ _ => Name.slot_inj.1
    have hslots := (Draft.added_names_nodup hnames base.methods).map hinj
    rw [List.map_map] at hslots ⊢
    exact hslots

/-- A class struct is not laid out only where the class's name is no identifier. -/
theorem layOut_metaclass_error (h : Lineage ds base) (hnames : (d.methods.map (·.name)).Nodup)
    {e : TypeError} (herror : StructType.layOut (Name.metaclass d.name) (some base.metaclass)
      ((d.added base.methods).map (·.slotField)) = .error e) :
    isIdentifier d.name = false ∧ e = .badName .structTag (Name.metaclass d.name) := by
  rcases StructType.layOut_error herror with ⟨hname, he⟩ | hfields
  · refine ⟨?_, he⟩
    rw [← Bool.not_eq_true] at hname ⊢
    exact mt isIdentifier_metaclass hname
  · rw [h.checkFields_slots hnames] at hfields
    cases hfields

/-! ## Resolving a draft -/

/-- What a draft that is resolved has, whatever entry points were made before. -/
theorem resolvable (h : Lineage ds base) {entries : EntryPoints} {r : Resolved}
    (hres : (entries.resolve d base).1 = .ok r) : d.Resolvable base := by
  obtain ⟨hd, -⟩ := EntryPoints.resolve_ok hres
  obtain ⟨hname, hfields⟩ := StructType.exists_layOut_iff.1 ⟨_, hd.object⟩
  obtain ⟨hfields, hfieldNames⟩ := StructType.checkFields_eq_ok.1 hfields
  obtain ⟨t, hdef⟩ := defineAll_of_resolve hres
  -- the table has no two entry points of one name, and inheriting changes none of them
  have hentries : (base.methods.flatMap (·.entryNames)
      ++ (newDefs base.methods d.methods).flatMap (·.entryNames d.name)).Nodup := by
    have hnodup := hd.noClash h.entryNames_nodup
    have hinherit : ∀ m, (d.inherit m).entryNames = m.entryNames := fun m =>
      congrArg (fun φ : Face => [φ.delegator.name, φ.superDelegator.name]) (d.face_inherit m)
    rw [hd.methods, List.flatMap_append, h.added_eq, List.flatMap_map, List.flatMap_map] at hnodup
    simp only [hinherit] at hnodup
    exact hnodup
  obtain ⟨-, hnodup, hdisjoint⟩ := List.nodup_append.1 hentries
  exact
    { single := hd.single
      superclass := hd.superclass
      names := hd.defs_nodup
      types := fun f hf m hm hname => Table.defineAll_compatible h.names_nodup hdef hf hm hname
      entryNames := hnodup
      entryNames_new := fun n hn hbase => hdisjoint n hbase n hn rfl
      filled := by
        intro hconcrete n hn
        obtain ⟨m, hm, rfl⟩ := h.exists_entry_of_name (d := d) hn
        rw [← hd.methods] at hm
        have hsome := hd.complete hconcrete m hm
        rw [hd.methods] at hm
        exact (h.isSome_iff_fills hd.defs_nodup hm).2.1 hsome
      name := hname
      storable := fun f hf => Variable.checkStorable_eq_ok.1 (hfields f hf).1
      fieldNames := hfieldNames
      fieldNames_new := fun f hf => (hfields f hf).2.2 }

/-- Why a class's definitions are refused. -/
theorem refused_of_defineAll {e : ModelError}
    (hdef : Table.defineAll d.name { inherited := base.methods } [] d.methods = .error e) :
    d.Refused base e := by
  obtain ⟨front, f, rest, hsplit, ⟨hname, rfl⟩ | ⟨t, hfront, hf⟩⟩ := Table.defineAll_error hdef
  · exact .repeated hsplit (by simpa using hname)
  · obtain ⟨-, -, hinh, hintro⟩ := Table.defineAll_ok hfront
    -- the definition that fails disagrees with an inherited entry, or a name of its own is taken
    rcases Table.define_error hf with ⟨m, hm, hname, htypes, rfl⟩ | ⟨hnew, n, hn, hused, rfl⟩
    · rw [hinh] at hm
      obtain ⟨m₀, hm₀, rfl⟩ := List.mem_map.1 hm
      exact .types (m := m₀) (hsplit ▸ by simp) hm₀ hname htypes
    · -- the table behind `front` is that of `base` with what `front` adds
      have hnew' : ∀ m ∈ base.methods, m.name ≠ f.name := by
        intro m hm
        exact hnew (m.boundBy d.name front) (hinh ▸ List.mem_map_of_mem hm)
      have hnewDefs : newDefs base.methods d.methods
          = newDefs base.methods front ++ f :: newDefs base.methods rest := by
        simpa [hsplit, newDefs, List.filter_cons] using hnew'
      rw [Table.entries, hinh, hintro, List.flatMap_append, List.nil_append, List.flatMap_map,
        List.flatMap_map] at hused
      exact .entryPoint hnewDefs hn hused

theorem refused_of_layOut {e : TypeError}
    (hobject : StructType.layOut d.name (some base.object) d.fields = .error e) :
    d.Refused base (.type e) := by
  rcases StructType.layOut_error hobject with ⟨hname, rfl⟩ | hfields
  · exact .name hname (.inl rfl)
  · obtain ⟨front, f, rest, hsplit, hf | ⟨hused, declaredIn, rfl⟩⟩ :=
      StructType.checkFields_error hfields
    · have hmem : f ∈ d.fields := hsplit ▸ by simp
      rcases Variable.checkStorable_eq_error.1 hf with ⟨hvoid, rfl⟩ | ⟨-, hstorage, rfl⟩
      · exact .void hmem hvoid
      · exact .storage hmem hstorage
    · exact .field hsplit hused

theorem refused_of_table (h : Lineage ds base) {e : ModelError} (htable : d.table base = .error e) :
    d.Refused base e := by
  rcases Draft.table_error htable with hdef | ⟨hconcrete, hnames, m, hm, hempty, rfl⟩
  · exact refused_of_defineAll hdef
  · obtain ⟨hname, hfills⟩ := h.isSome_iff_fills hnames hm
    rw [hempty] at hfills
    exact .empty hconcrete hname fun hfilled => Bool.false_ne_true (hfills.2 hfilled)

theorem refused_of_resolveClass (h : Lineage ds base) {e : ModelError}
    (hclass : d.resolveClass base = .error e) : d.Refused base e := by
  -- the steps in the order in which they are taken, each with its fault
  by_cases hmany : 1 < d.superclasses.length
  · simp only [Draft.resolveClass, hmany, if_true] at hclass
    obtain rfl := throw_bind_eq_error.1 hclass
    exact .superclasses hmany
  by_cases hsuper : d.superclass = base.name
  · rw [Draft.resolveClass_eq (Nat.le_of_not_lt hmany) hsuper] at hclass
    rcases bind_eq_error.1 hclass with htable | ⟨t, htable, hclass⟩
    · exact h.refused_of_table htable
    obtain ⟨-, hintro, hnames, -⟩ := Draft.table_ok htable
    rcases bind_eq_error.1 hclass with hstep | ⟨_, -, hclass⟩
    · obtain ⟨e', hmetaclass, rfl⟩ := ModelError.ofType_eq_error.1 hstep
      rw [hintro] at hmetaclass
      obtain ⟨hname, rfl⟩ := h.layOut_metaclass_error hnames hmetaclass
      exact .name hname (.inr rfl)
    rcases bind_eq_error.1 hclass with hstep | ⟨_, -, hclass⟩
    · obtain ⟨e', hobject, rfl⟩ := ModelError.ofType_eq_error.1 hstep
      exact refused_of_layOut hobject
    · -- with both structs laid out there is nothing left that fails
      cases hclass
  · simp only [Draft.resolveClass, hmany, if_false, ne_eq, hsuper, not_false_eq_true, if_true]
      at hclass
    obtain rfl := throw_bind_eq_error.1 hclass
    exact .superclass hsuper

/-- The entry points of new methods can always be made. -/
theorem exists_entries (h : Lineage ds base) (hmethods : ∀ f ∈ d.methods, f.Checked)
    (hnames : (d.methods.map (·.name)).Nodup) : ∃ made entries,
      ({} : EntryPoints).entries d.name ((d.added base.methods).map (·.signature))
        = (.ok made, entries) := by
  refine EntryPoints.exists_entries ?_ ?_ (fun _ _ => List.not_mem_nil)
  · intro s hs
    obtain ⟨m, hm, rfl⟩ := List.mem_map.1 hs
    rw [h.added_eq] at hm
    obtain ⟨f, hf, rfl⟩ := List.mem_map.1 hm
    exact (hmethods f (mem_newDefs.1 hf).1).exists_checkMethod d.name
  · rw [List.map_map]
    exact Draft.added_names_nodup hnames base.methods

/-- Why a draft of accepted methods is not resolved. -/
theorem refused (h : Lineage ds base) (hmethods : ∀ f ∈ d.methods, f.Checked) {e : ModelError}
    (hres : (EntryPoints.resolve {} d base).1 = .error e) : d.Refused base e := by
  unfold EntryPoints.resolve at hres
  cases hclass : d.resolveClass base with
  | error e' =>
    rw [hclass] at hres
    obtain rfl := Except.error.inj hres
    exact h.refused_of_resolveClass hclass
  | ok ct =>
    obtain ⟨c, t⟩ := ct
    obtain ⟨hd, hintro⟩ := Draft.derives_of_resolveClass hclass
    -- entry points are made of checked definitions, so that step cannot be the one that failed
    obtain ⟨made, entries, hentries⟩ := h.exists_entries hmethods hd.defs_nodup
    rw [hclass] at hres
    dsimp only at hres
    rw [hintro, hentries] at hres
    cases hres

/-- On top of a class that comes from the root, a draft of accepted methods is resolved just where
it is resolvable, if no entry points are remembered; otherwise it is refused for a condition that
does not hold. Of what is derived from its methods nothing can fail: not the signatures of their
entry points, not the fields for their slots, not the pieces made for them, and not the class
struct, unless the draft's name is no identifier. -/
theorem resolve_succeeds_iff (h : Lineage ds base) (hmethods : ∀ f ∈ d.methods, f.Accepted) :
    ((∃ r, (EntryPoints.resolve {} d base).1 = .ok r) ↔ d.Resolvable base) ∧
    (∀ e, (EntryPoints.resolve {} d base).1 = .error e → d.Refused base e) ∧
    (∀ f ∈ d.methods,
      checkedDelegator d.name f.signature = .ok (delegatorSignature d.name f.signature) ∧
      checkedSuperDelegator f.signature = .ok (superSignature f.signature) ∧
      (f.introduce d.name).checkedSlotField = .ok (f.introduce d.name).slotField) ∧
    ∀ t, d.table base = .ok t →
      (∀ e, StructType.layOut (Name.metaclass d.name) (some base.metaclass)
          (t.introduced.map (·.slotField)) = .error e →
        isIdentifier d.name = false ∧ e = .badName .structTag (Name.metaclass d.name)) ∧
      ∃ made entries,
        ({} : EntryPoints).entries d.name (t.introduced.map (·.signature))
          = (.ok made, entries) := by
  have hchecked : ∀ f ∈ d.methods, f.Checked := fun f hf => (hmethods f hf).checked
  refine ⟨⟨fun ⟨r, hres⟩ => h.resolvable hres, fun hd => ?_⟩, fun e => h.refused hchecked, ?_, ?_⟩
  · -- a draft is resolved or refused, and one that can be resolved is not refused
    cases hres : (EntryPoints.resolve {} d base).1 with
    | ok r => exact ⟨r, rfl⟩
    | error e => exact absurd hd (h.refused hchecked hres).not_resolvable
  · intro f hf
    have hf := hchecked f hf
    exact ⟨hf.checkedDelegator_eq d.name, hf.checkedSuperDelegator_eq,
      hf.checkedSlotField_eq d.name⟩
  · intro t htable
    obtain ⟨-, hintro, hnames, -⟩ := Draft.table_ok htable
    rw [hintro]
    exact ⟨fun e => h.layOut_metaclass_error hnames, h.exists_entries hchecked hnames⟩

end Lineage

theorem Sample.accepted_tile : ∀ f ∈ Sample.tile.methods, f.Accepted := by
  refine List.forall_mem_cons.2 ⟨?_, List.forall_mem_singleton.2 ?_⟩
  · exact MethodDef.accepted_of .normal none rfl rfl
  · exact MethodDef.accepted_of .normal (some "tile_paint") rfl rfl

/-- The class with device copies under a name that opens with a digit. -/
def Sample.misnamed : Draft :=
  { Sample.tile with name := "2D" }

/-- The class with device copies is resolved under its own name alone. -/
theorem Lineage.resolve_succeeds_iff_sample : ∃ base, Lineage [Sample.square, Sample.shape] base ∧
    Sample.tile.Resolvable base ∧
    ¬ ∃ r, (EntryPoints.resolve {} Sample.misnamed base).1 = .ok r := by
  obtain ⟨base, hbase, htile⟩ := exists_of_any_toOption
    (x := resolveChain [Sample.square, Sample.shape])
    (P := fun c => (EntryPoints.resolve {} Sample.tile c).1.toOption.isSome = true)
    (by decide +kernel)
  have hlin := Lineage.of_resolveChain hbase
  refine ⟨base, hlin, ?_, fun hres => ?_⟩
  · exact (hlin.resolve_succeeds_iff Sample.accepted_tile).1.1 (isSome_toOption.1 htile)
  · have hd := (hlin.resolve_succeeds_iff (d := Sample.misnamed) Sample.accepted_tile).1.1 hres
    exact absurd hd.name (by decide)

/-- Under a name that is no identifier it is the class struct that fails: it is laid out before the
object struct. -/
theorem Lineage.misnamed_class_struct_refused : ∃ base t,
    Lineage [Sample.square, Sample.shape] base ∧ (∀ f ∈ Sample.misnamed.methods, f.Accepted) ∧
    Sample.misnamed.table base = .ok t ∧
    StructType.layOut (Name.metaclass Sample.misnamed.name) (some base.metaclass)
      (t.introduced.map (·.slotField)) = .error (.badName .structTag "2DClass") ∧
    (EntryPoints.resolve {} Sample.misnamed base).1
      = .error (.type (.badName .structTag "2DClass")) := by
  obtain ⟨base, hbase, hsuper, htable⟩ := exists_of_any_toOption
    (x := resolveChain [Sample.square, Sample.shape])
    (P := fun c => Sample.misnamed.superclass = c.name ∧
      (Sample.misnamed.table c).toOption.isSome = true)
    (by decide +kernel)
  obtain ⟨t, ht⟩ := isSome_toOption.1 htable
  have hname : checkName .structTag (Name.metaclass Sample.misnamed.name)
      = .error (.badName .structTag "2DClass") := checkName_eq_error.2 (by decide)
  have hmetaclass : StructType.layOut (Name.metaclass Sample.misnamed.name) (some base.metaclass)
      (t.introduced.map (·.slotField)) = .error (.badName .structTag "2DClass") := by
    rw [StructType.layOut, hname]
    rfl
  have hclass : Sample.misnamed.resolveClass base
      = .error (.type (.badName .structTag "2DClass")) := by
    rw [Draft.resolveClass_eq (by decide) hsuper, ht]
    dsimp only [bind, Except.bind]
    rw [hmetaclass]
    rfl
  refine ⟨base, t, .of_resolveChain hbase, Sample.accepted_tile, ht, hmetaclass, ?_⟩
  rw [EntryPoints.resolve, hclass]

end ClassForge.Class

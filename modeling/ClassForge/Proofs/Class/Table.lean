import ClassForge.Class.Resolve
import ClassForge.Proofs.Class.Name
import ClassForge.Proofs.Except
import ClassForge.Proofs.Keyed
import Mathlib.Data.List.Basic
import Mathlib.Data.List.Nodup

/-!
# What a draft does to a table

Taking a draft's definitions into a table changes no entry but for its implementation, and puts an
entry behind the others for each definition under a new name. `Table.define_ok` says what one
definition does and `Table.defineAll_ok` what all of a class's definitions do; `Draft.table_ok` adds
the generated copy routines.
-/

namespace ClassForge.Class

open C

/-! ## The part of an entry that stays -/

/-- All of an entry but its kind and its implementation. -/
structure Face where
  name : String
  introducedBy : String
  signature : Signature
  delegator : Signature
  superDelegator : Signature
  typedef : String

namespace Method

/-- The part of an entry that every class below shares. -/
def face (m : Method) : Face where
  name := m.name
  introducedBy := m.introducedBy
  signature := m.signature
  delegator := m.delegator
  superDelegator := m.superDelegator
  typedef := m.typedef

@[simp] theorem bind_none (m : Method) : m.bind none = m := rfl

@[simp] theorem name_bind (m : Method) (i : Option Implementation) : (m.bind i).name = m.name := rfl

/-- Tables of equal faces have equal names. -/
theorem map_name_of_face {l l' : List Method} (h : l.map face = l'.map face) :
    l.map name = l'.map name := by
  simpa [face, Function.comp_def] using congrArg (List.map Face.name) h

/-- Tables of equal faces have equal entry points. -/
theorem flatMap_entryNames_of_face {l l' : List Method} (h : l.map face = l'.map face) :
    l.flatMap entryNames = l'.flatMap entryNames := by
  have hnames := congrArg (List.flatMap fun f => [f.delegator.name, f.superDelegator.name]) h
  simp only [List.flatMap_map] at hnames
  exact hnames

@[simp] theorem face_bindCopy (cls : String) (m : Method) : (m.bindCopy cls).face = m.face := by
  unfold bindCopy
  split <;> rfl

/-- Only the slots that copy objects ever get a generated routine. -/
theorem bindCopy_of_not_mem {cls : String} {m : Method} (h : m.name ∉ copyMethods) :
    m.bindCopy cls = m :=
  if_neg fun hc => h hc.2.1

end Method

/-! ## A class's own definitions -/

/-- The entry that a definition makes in a table that has none of its name. -/
def MethodDef.introduce (cls : String) (d : MethodDef) : Method where
  introducedBy := cls
  signature := d.signature
  implementation := implementationOf cls d

@[simp] theorem MethodDef.name_introduce (cls : String) (d : MethodDef) :
    (d.introduce cls).name = d.name := rfl

@[simp] theorem MethodDef.introducedBy_introduce (cls : String) (d : MethodDef) :
    (d.introduce cls).introducedBy = cls := rfl

/-- The entry as a class's definitions leave it. -/
def Method.boundBy (cls : String) (ds : List MethodDef) (m : Method) : Method :=
  m.bind ((ds.find? (·.name == m.name)).bind (implementationOf cls))

@[simp] theorem Method.face_boundBy (cls : String) (ds : List MethodDef) (m : Method) :
    (m.boundBy cls ds).face = m.face := rfl

/-- The definitions under names that no entry of a table has. -/
def newDefs (inherited : List Method) (ds : List MethodDef) : List MethodDef :=
  ds.filter fun d => (inherited.find? (·.name == d.name)).isNone

theorem mem_newDefs {inherited : List Method} {ds : List MethodDef} {d : MethodDef} :
    d ∈ newDefs inherited ds ↔ d ∈ ds ∧ ∀ m ∈ inherited, m.name ≠ d.name := by
  simp [newDefs]

/-- Under a name that the table lacks, the new definitions are all there are. -/
theorem find?_newDefs {inherited : List Method} {ds : List MethodDef} {method : String}
    (h : ∀ m ∈ inherited, m.name ≠ method) :
    (newDefs inherited ds).find? (·.name == method) = ds.find? (·.name == method) := by
  rw [newDefs, List.find?_filter]
  congr 1
  funext d
  by_cases hname : d.name = method
  · simpa [hname] using h
  · simp [hname]

/-- Which definitions are new depends on the names in the table alone. -/
theorem newDefs_congr {l l' : List Method} (h : l.map (·.name) = l'.map (·.name))
    (ds : List MethodDef) : newDefs l ds = newDefs l' ds := by
  have hnames : ∀ d : MethodDef,
      (l.find? (·.name == d.name)).isNone = (l'.find? (·.name == d.name)).isNone := by
    intro d
    have hmem : (∀ m ∈ l, m.name ≠ d.name) ↔ ∀ m ∈ l', m.name ≠ d.name := by
      rw [← List.forall_mem_map (f := Method.name) (P := (· ≠ d.name)), h, List.forall_mem_map]
    rw [Bool.eq_iff_iff]
    simpa using hmem
  simp only [newDefs, hnames]

namespace Table

/-- What one definition does: it binds an inherited entry of its name, or adds an entry whose entry
points have names of their own. -/
theorem define_ok {t t' : Table} {cls : String} {d : MethodDef} (h : t.define cls d = .ok t') :
    (∃ m, t.inherited.find? (·.name == d.name) = some m ∧ m.signature.compatible d.signature = true ∧
      t' = t.override d.name (implementationOf cls d)) ∨
    (t.inherited.find? (·.name == d.name) = none ∧
      (∀ n ∈ (d.introduce cls).entryNames, n ∉ t.entries.flatMap (·.entryNames)) ∧
      t' = { t with introduced := t.introduced ++ [d.introduce cls] }) := by
  -- a definition is for an inherited entry, or its names are free
  unfold define at h
  cases hfind : t.inherited.find? (·.name == d.name) with
  | some m =>
    simp only [hfind] at h
    split at h
    next hcompat => exact .inl ⟨m, rfl, hcompat, (Except.ok.inj h).symm⟩
    next => cases h
  | none =>
    simp only [hfind] at h
    split at h
    next => cases h
    next hfree =>
      refine .inr ⟨rfl, fun n hn hmem => ?_, (Except.ok.inj h).symm⟩
      have hn' := List.find?_eq_none.1 hfree n hn
      obtain ⟨m, hm, hnm⟩ := List.mem_flatMap.1 hmem
      exact hn' (List.any_eq_true.2 ⟨m, hm, by simpa using hnm⟩)

/-- Why one definition is refused: the inherited entry of its name has other types, or an entry
point of its new entry has a name that is in use. -/
theorem define_error {t : Table} {cls : String} {d : MethodDef} {e : ModelError}
    (h : t.define cls d = .error e) :
    (∃ m ∈ t.inherited, m.name = d.name ∧ m.signature.compatible d.signature = false ∧
      e = .signatureMismatch cls d.name m.introducedBy m.signature.text d.signature.text) ∨
    (∀ m ∈ t.inherited, m.name ≠ d.name) ∧ ∃ n ∈ (d.introduce cls).entryNames,
      n ∈ t.entries.flatMap (·.entryNames) ∧ e = .duplicateMethod cls n := by
  unfold define at h
  cases hfind : t.inherited.find? (·.name == d.name) with
  | some m =>
    simp only [hfind] at h
    split at h
    next => cases h
    -- an inherited entry of other types
    next htypes =>
      refine .inl ⟨m, List.mem_of_find?_eq_some hfind, ?_, by simpa using htypes,
        (Except.error.inj h).symm⟩
      simpa using List.find?_some hfind
  | none =>
    simp only [hfind] at h
    split at h
    -- no inherited entry, but one of the two names is taken
    next n hused =>
      refine .inr ⟨find?_key_eq_none.1 hfind, n, List.mem_of_find?_eq_some hused, ?_,
        (Except.error.inj h).symm⟩
      simpa [List.mem_flatMap] using List.find?_some hused
    next => cases h

/-- Binding an entry leaves all faces as they are. -/
theorem face_override (t : Table) (name : String) (i : Option Implementation) :
    (t.override name i).inherited.map Method.face = t.inherited.map Method.face := by
  simp only [override, List.map_map]
  refine List.map_congr_left fun m _ => ?_
  simp only [Function.comp_apply]
  split <;> rfl

/-- Binding an entry and then the others is binding all. -/
theorem boundBy_override {cls : String} {d : MethodDef} {ds : List MethodDef}
    (hd : d.name ∉ ds.map (·.name)) (m : Method) :
    (if m.name = d.name then m.bind (implementationOf cls d) else m).boundBy cls ds
      = m.boundBy cls (d :: ds) := by
  by_cases hm : m.name = d.name
  · have hnone : ds.find? (·.name == d.name) = none := by
      rw [List.find?_eq_none]
      intro x hx hname
      exact hd (List.mem_map.2 ⟨x, hx, by simpa using hname⟩)
    simp [Method.boundBy, hm, hnone]
  · have hne : (d.name == m.name) = false := by simpa using Ne.symm hm
    simp [Method.boundBy, hm, hne]

theorem boundBy_cons_of_ne {cls : String} {d : MethodDef} {ds : List MethodDef} {m : Method}
    (hm : m.name ≠ d.name) : m.boundBy cls (d :: ds) = m.boundBy cls ds := by
  have hne : (d.name == m.name) = false := by simpa using Ne.symm hm
  simp [Method.boundBy, hne]

/-- What a class's definitions do: each binds the inherited entry of its name, and those under new
names are put behind the table in their order. No name is defined twice. -/
theorem defineAll_ok {cls : String} {t t' : Table} {earlier : List String} {ds : List MethodDef}
    (h : defineAll cls t earlier ds = .ok t') :
    (ds.map (·.name)).Nodup ∧ (∀ d ∈ ds, d.name ∉ earlier) ∧
      t'.inherited = t.inherited.map (·.boundBy cls ds) ∧
      t'.introduced = t.introduced ++ (newDefs t.inherited ds).map (·.introduce cls) := by
  induction ds generalizing t earlier with
  | nil =>
    cases h
    simp [Method.boundBy, newDefs]
  | cons d ds ih =>
    simp only [defineAll] at h
    split at h
    next => exact absurd h throw_bind_ne_ok
    next hearlier =>
      obtain ⟨t₁, hdef, hrest⟩ := bind_eq_ok.1 h
      obtain ⟨hnodup, hfree, hinh, hintro⟩ := ih hrest
      have hd : d.name ∉ ds.map (·.name) := by
        rintro hmem
        obtain ⟨x, hx, hname⟩ := List.mem_map.1 hmem
        exact hfree x hx (by simp [hname])
      refine ⟨List.nodup_cons.2 ⟨hd, hnodup⟩, ?_, ?_⟩
      · rintro x (_ | ⟨_, hx⟩)
        · exact hearlier
        · exact fun hmem => hfree x hx (List.mem_append_left _ hmem)
      -- an override changes no name in the table, so the same later definitions are new
      rcases define_ok hdef with ⟨m, hfind, -, rfl⟩ | ⟨hfind, -, rfl⟩
      · have hnames := Method.map_name_of_face (face_override t d.name (implementationOf cls d))
        constructor
        · rw [hinh]
          simp only [override, List.map_map]
          exact List.map_congr_left fun m _ => boundBy_override hd m
        · rw [hintro, newDefs_congr hnames]
          simp [override, newDefs, hfind]
      · have hne : ∀ m ∈ t.inherited, m.name ≠ d.name := by
          simpa using List.find?_eq_none.1 hfind
        constructor
        · rw [hinh]
          exact List.map_congr_left fun m hm => (boundBy_cons_of_ne (hne m hm)).symm
        · rw [hintro]
          simp [newDefs, hfind]

/-- A class's definitions are refused at the first that repeats a name or is refused itself. -/
theorem defineAll_error {cls : String} {t : Table} {earlier : List String} {ds : List MethodDef}
    {e : ModelError} (h : defineAll cls t earlier ds = .error e) :
    ∃ front d rest, ds = front ++ d :: rest ∧
      (d.name ∈ earlier ++ front.map (·.name) ∧ e = .duplicateMethod cls d.name ∨
        ∃ t₁, defineAll cls t earlier front = .ok t₁ ∧ t₁.define cls d = .error e) := by
  -- along the definitions, up to the first that fails
  induction ds generalizing t earlier with
  | nil => cases h
  | cons d ds ih =>
    simp only [defineAll] at h
    split at h
    next hearlier =>
      exact ⟨[], d, ds, rfl, .inl ⟨by simpa using hearlier, throw_bind_eq_error.1 h⟩⟩
    next hearlier =>
      rcases bind_eq_error.1 h with h | ⟨t₁, hdef, h⟩
      · exact ⟨[], d, ds, rfl, .inr ⟨t, rfl, h⟩⟩
      · obtain ⟨front, f, rest, rfl, hf⟩ := ih h
        refine ⟨d :: front, f, rest, rfl, hf.imp (fun hf => by simpa using hf) ?_⟩
        rintro ⟨t₂, hfront, hf⟩
        refine ⟨t₂, ?_, hf⟩
        simp only [defineAll, hearlier, if_false]
        exact bind_eq_ok.2 ⟨t₁, hdef, hfront⟩

/-- A class's definitions take and return what the entries of their names do. -/
theorem defineAll_compatible {cls : String} {t t' : Table} {earlier : List String}
    {ds : List MethodDef} (hnames : (t.inherited.map (·.name)).Nodup)
    (h : defineAll cls t earlier ds = .ok t') {d : MethodDef} (hd : d ∈ ds) {m : Method}
    (hm : m ∈ t.inherited) (hname : m.name = d.name) :
    m.signature.compatible d.signature = true := by
  induction ds generalizing t earlier m with
  | nil => cases hd
  | cons first ds ih =>
    simp only [defineAll] at h
    split at h
    next => exact absurd h throw_bind_ne_ok
    next =>
      obtain ⟨t₁, hdef, hrest⟩ := bind_eq_ok.1 h
      -- the entry has its name and its signature still when later definitions come
      have hfaces : t₁.inherited.map Method.face = t.inherited.map Method.face := by
        rcases define_ok hdef with ⟨_, -, -, rfl⟩ | ⟨-, -, rfl⟩
        · exact face_override _ _ _
        · rfl
      obtain rfl | hd := List.mem_cons.1 hd
      · have hfind := find?_key_of_mem hnames hm
        rw [hname] at hfind
        rcases define_ok hdef with ⟨m₁, hfind₁, htypes, -⟩ | ⟨hnone, -⟩
        · obtain rfl := Option.some.inj (hfind.symm.trans hfind₁)
          exact htypes
        · cases hfind.symm.trans hnone
      · obtain ⟨m₁, hm₁, hface⟩ :=
          List.mem_map.1 (hfaces ▸ List.mem_map_of_mem (f := Method.face) hm)
        have hsignature : m₁.signature = m.signature := congrArg Face.signature hface
        have hname₁ : m₁.name = m.name := congrArg Face.name hface
        rw [← hsignature]
        exact ih (Method.map_name_of_face hfaces ▸ hnames) hrest hd hm₁ (hname₁.trans hname)

/-! ## Entry points of different names -/

/-- No two entry points of a table share a name. -/
def NoClash (t : Table) : Prop :=
  (t.entries.flatMap (·.entryNames)).Nodup

theorem NoClash.of_face {t t' : Table} (h : t.NoClash)
    (hface : t'.entries.map Method.face = t.entries.map Method.face) : t'.NoClash := by
  unfold NoClash
  rw [Method.flatMap_entryNames_of_face hface]
  exact h

/-- One definition keeps entry points apart. -/
theorem NoClash.define {t t' : Table} {cls : String} {d : MethodDef} (ht : t.NoClash)
    (h : t.define cls d = .ok t') : t'.NoClash := by
  rcases define_ok h with ⟨m, -, -, rfl⟩ | ⟨-, hfree, rfl⟩
  · -- an override changes no names
    refine ht.of_face ?_
    have hface := face_override t d.name (implementationOf cls d)
    simp only [entries, List.map_append, hface]
    rfl
  · -- a new entry has two names, which differ, and neither is in the table
    have hpair : (d.introduce cls).entryNames.Nodup := by
      refine List.nodup_cons.2 ⟨fun hmem => ?_, List.nodup_singleton _⟩
      exact Name.delegator_ne_superDelegator cls d.name (List.mem_singleton.1 hmem)
    have hsplit : ({ t with introduced := t.introduced ++ [d.introduce cls] } : Table).entries
        = t.entries ++ [d.introduce cls] := by
      simp [entries]
    unfold NoClash
    rw [hsplit, List.flatMap_append, List.flatMap_singleton]
    exact ht.append hpair fun n hold hnew => hfree n hnew hold

/-- A class's definitions keep entry points apart. -/
theorem NoClash.defineAll {cls : String} {t t' : Table} {earlier : List String}
    {ds : List MethodDef} (ht : t.NoClash) (h : defineAll cls t earlier ds = .ok t') :
    t'.NoClash := by
  induction ds generalizing t earlier with
  | nil =>
    cases h
    exact ht
  | cons d ds ih =>
    simp only [Table.defineAll] at h
    split at h
    next => exact absurd h throw_bind_ne_ok
    next =>
      obtain ⟨t₁, hdef, hrest⟩ := bind_eq_ok.1 h
      exact ih (ht.define hdef) hrest

end Table

/-! ## The table of a draft's class -/

namespace Draft

/-- The entry as the class of a draft has it once copy routines are generated. -/
def copied (d : Draft) (m : Method) : Method :=
  if d.coprocessor then m.bindCopy d.name else m

/-- An inherited entry as the class of a draft has it. -/
def inherit (d : Draft) (m : Method) : Method :=
  d.copied (m.boundBy d.name d.methods)

/-- The entries that the class of a draft puts behind those it inherits. -/
def added (d : Draft) (inherited : List Method) : List Method :=
  (newDefs inherited d.methods).map fun f => d.copied (f.introduce d.name)

@[simp] theorem face_copied (d : Draft) (m : Method) : (d.copied m).face = m.face := by
  unfold copied
  split <;> simp

@[simp] theorem name_copied (d : Draft) (m : Method) : (d.copied m).name = m.name :=
  congrArg Face.name (d.face_copied m)

theorem copied_of_not_mem {d : Draft} {m : Method} (h : m.name ∉ copyMethods) :
    d.copied m = m := by
  unfold copied
  split
  · exact Method.bindCopy_of_not_mem h
  · rfl

@[simp] theorem face_inherit (d : Draft) (m : Method) : (d.inherit m).face = m.face := by
  simp [inherit]

@[simp] theorem name_inherit (d : Draft) (m : Method) : (d.inherit m).name = m.name :=
  congrArg Face.name (d.face_inherit m)

@[simp] theorem slot_inherit (d : Draft) (m : Method) : (d.inherit m).slot = m.slot :=
  congrArg Name.slot (d.name_inherit m)

@[simp] theorem introducedBy_copied (d : Draft) (m : Method) :
    (d.copied m).introducedBy = m.introducedBy :=
  congrArg Face.introducedBy (d.face_copied m)

@[simp] theorem introducedBy_inherit (d : Draft) (m : Method) :
    (d.inherit m).introducedBy = m.introducedBy :=
  congrArg Face.introducedBy (d.face_inherit m)

/-- Why a draft gets no table: a definition is refused, or a class that is not abstract leaves a
slot empty. -/
theorem table_error {d : Draft} {base : Class} {e : ModelError} (h : d.table base = .error e) :
    Table.defineAll d.name { inherited := base.methods } [] d.methods = .error e ∨
      d.isAbstract = false ∧ (d.methods.map (·.name)).Nodup ∧
        ∃ m ∈ base.methods.map d.inherit ++ d.added base.methods,
          m.implementation = none ∧ e = .missingImplementation d.name m.name := by
  rcases bind_eq_error.1 h with h | ⟨t, hdef, h⟩
  · exact .inl h
  · obtain ⟨hnodup, -, hinh, hintro⟩ := Table.defineAll_ok hdef
    -- binding the copy routines or not, the entries are the inherited and the added ones
    have hentries : (if d.coprocessor then t.bindCopies d.name else t).entries
        = base.methods.map d.inherit ++ d.added base.methods := by
      cases hco : d.coprocessor <;>
        simp [hco, Table.entries, hinh, hintro, Table.bindCopies, inherit, added, copied,
          Function.comp_def]
    cases hab : d.isAbstract with
    | true =>
      simp only [hab] at h
      cases h
    | false =>
      simp only [hab] at h
      simp only [Bool.not_false, if_true] at h
      split at h
      next m hfind =>
        have hm := List.mem_of_find?_eq_some hfind
        rw [hentries] at hm
        have hempty : m.implementation = none := by simpa using List.find?_some hfind
        exact .inr ⟨rfl, hnodup, m, hm, hempty, throw_bind_eq_error.1 h⟩
      next => cases h

/-- The table of a draft's class: the inherited entries in their order, then the new ones. Only an
abstract class leaves slots empty. -/
theorem table_ok {d : Draft} {base : Class} {t : Table} (h : d.table base = .ok t) :
    t.inherited = base.methods.map d.inherit ∧ t.introduced = d.added base.methods ∧
      (d.methods.map (·.name)).Nodup ∧
      (d.isAbstract = false → ∀ m ∈ t.entries, m.implementation.isSome) ∧
      ((base.methods.flatMap (·.entryNames)).Nodup → t.NoClash) := by
  obtain ⟨t₀, hdef, hrest⟩ := bind_eq_ok.1 h
  obtain ⟨hnodup, -, hinh, hintro⟩ := Table.defineAll_ok hdef
  -- what the rest of the body returns, whether or not it looks for empty slots
  have ht : t = (if d.coprocessor then t₀.bindCopies d.name else t₀) ∧
      (d.isAbstract = false → ∀ m ∈ t.entries, m.implementation.isSome) := by
    cases hab : d.isAbstract with
    | true =>
      simp only [hab] at hrest
      exact ⟨(Except.ok.inj hrest).symm, by simp⟩
    | false =>
      simp only [hab] at hrest
      simp only [Bool.not_false, if_true] at hrest
      split at hrest
      next => exact absurd hrest throw_bind_ne_ok
      next hnone =>
        cases hrest
        refine ⟨rfl, fun _ m hm => ?_⟩
        have hsome := List.find?_eq_none.1 hnone m hm
        simpa [Option.isSome_iff_ne_none] using hsome
  have hclash : (base.methods.flatMap (·.entryNames)).Nodup → t₀.NoClash := fun hb =>
    Table.NoClash.defineAll (t := { inherited := base.methods })
      (by simpa [Table.NoClash, Table.entries] using hb) hdef
  obtain ⟨rfl, hfull⟩ := ht
  refine ⟨?_, ?_, hnodup, hfull, fun hb => (hclash hb).of_face ?_⟩
  · cases hco : d.coprocessor <;>
      simp [hco, hinh, Table.bindCopies, inherit, copied, Function.comp_def]
  · cases hco : d.coprocessor <;>
      simp [hco, hintro, Table.bindCopies, added, copied, Function.comp_def]
  · split <;> simp [Table.entries, Table.bindCopies, Function.comp_def]

end Draft

end ClassForge.Class

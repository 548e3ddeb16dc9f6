import ClassForge.Proofs.C.Signature
import Mathlib.Data.List.Nodup

/-!
# Chains of structs

A struct that is laid out on top of others adds fields under names that are new in the chain. So
along a chain that was laid out, a field name belongs to one struct, the embedded structs aside, and
every struct from there on finds it in that one. A name that is taken is reported with the nearest
struct that has it, and the new struct itself is the nearest of all.
-/

namespace ClassForge.C.StructType

/-- A struct that was laid out, on top of structs that were. -/
inductive LaidOut : StructType → Prop
  | root {name : String} {fields : List Variable} {s : StructType}
    (h : layOut name none fields = .ok s) : LaidOut s
  | extension {name : String} {base s : StructType} {fields : List Variable} (hbase : LaidOut base)
    (h : layOut name (some base) fields = .ok s) : LaidOut s

/-! ## The first fault -/

/-- Fields are checked from the front. -/
theorem checkFields_append {name : String} {base : Option StructType}
    {earlier front rest : List Variable} :
    checkFields name base earlier (front ++ rest)
      = (checkFields name base earlier front >>= fun _ =>
          checkFields name base (earlier ++ front) rest) := by
  induction front generalizing earlier with
  | nil =>
    rw [List.nil_append, List.append_nil]
    rfl
  | cons f fs ih =>
    rw [List.cons_append, checkFields, checkFields]
    -- the first field that fails ends both runs alike
    cases f.checkStorable "field" with
    | error e => rfl
    | ok _ =>
      dsimp only [bind, Except.bind]
      cases takenBy? name base earlier f.name with
      | some declaredIn => rfl
      | none =>
        dsimp only
        rw [ih, List.append_assoc]
        rfl

/-- A name is reported as taken by the nearest struct that has a field of it: the new struct with
the fields in front comes first, then the chain. -/
theorem takenBy?_eq_declaring? {name field : String} {base : StructType}
    {earlier : List Variable} : takenBy? name (some base) earlier field
      = ((extension name base earlier).declaring? field).map (·.name) := by
  -- names of the struct itself come before those of its bases, in the check as in the lookup
  by_cases hown : field ∈ earlier.map (·.name) ∨ field = baseField
  · have hfield : ∃ f ∈ (extension name base earlier).fields, f.name = field := by
      rcases hown with hearlier | rfl
      · obtain ⟨f, hf, rfl⟩ := List.mem_map.1 hearlier
        exact ⟨f, List.mem_cons_of_mem _ hf, rfl⟩
      · exact ⟨embedding base, List.mem_cons_self, rfl⟩
    obtain ⟨f, hf, rfl⟩ := hfield
    rw [declaring?_of_mem hf, Option.map_some, takenBy?]
    rcases hown with hearlier | hbase
    · rw [if_pos (by simpa using hearlier)]
      rfl
    · rw [if_pos hbase, ite_self]
      rfl
  · obtain ⟨hearlier, hbase⟩ := not_or.1 hown
    have hnone : ∀ f ∈ (extension name base earlier).fields, f.name ≠ field := by
      refine List.forall_mem_cons.2 ⟨Ne.symm hbase, fun f hf hname => hearlier ?_⟩
      exact List.mem_map.2 ⟨f, hf, hname⟩
    rw [declaring?_extension hnone, takenBy?, if_neg (by simpa using hearlier), if_neg hbase]

/-- A field is refused because of its name where those in front of it pass, it can be stored, and
its name is taken. -/
theorem checkFields_eq_duplicate {name struct field declaredIn : String} {base : Option StructType}
    {earlier fields : List Variable} :
    checkFields name base earlier fields = .error (.duplicateField struct field declaredIn) ↔
      struct = name ∧ ∃ front f rest, fields = front ++ f :: rest ∧ f.name = field ∧
        checkFields name base earlier front = .ok () ∧ f.checkStorable "field" = .ok () ∧
        takenBy? name base (earlier ++ front) field = some declaredIn := by
  constructor
  · intro h
    induction fields generalizing earlier with
    | nil => cases h
    | cons f fs ih =>
      rw [checkFields] at h
      rcases bind_eq_error.1 h with hf | ⟨⟨⟩, hf, h⟩
      · -- an unfit type or storage class is another error
        rcases Variable.checkStorable_eq_error.1 hf with ⟨-, he⟩ | ⟨-, -, he⟩ <;> cases he
      · cases htaken : takenBy? name base earlier f.name with
        | some d =>
          rw [htaken] at h
          cases h
          exact ⟨rfl, [], f, fs, rfl, rfl, rfl, hf, by rwa [List.append_nil]⟩
        | none =>
          rw [htaken] at h
          -- `f` passes and joins those in front of the field that fails
          obtain ⟨rfl, front, g, rest, rfl, hname, hfront, hg, hused⟩ := ih h
          refine ⟨rfl, f :: front, g, rest, rfl, hname, ?_, hg, by simpa using hused⟩
          rw [checkFields, hf, htaken]
          exact hfront
  · rintro ⟨rfl, front, f, rest, rfl, rfl, hfront, hf, htaken⟩
    rw [checkFields_append, hfront]
    dsimp only [bind, Except.bind]
    rw [checkFields, hf, htaken]
    rfl

/-- A struct whose name is an identifier is refused for what its fields are refused for. -/
theorem layOut_eq_duplicate {name struct field declaredIn : String} {base : StructType}
    {fields : List Variable} :
    layOut name (some base) fields = .error (.duplicateField struct field declaredIn) ↔
      isIdentifier name = true ∧
        checkFields name (some base) [] fields
          = .error (.duplicateField struct field declaredIn) := by
  constructor
  · intro h
    rcases bind_eq_error.1 h with hname | ⟨⟨⟩, hname, h⟩
    · cases (checkName_eq_error.1 hname).2
    · refine ⟨checkName_eq_ok.1 hname, ?_⟩
      rcases bind_eq_error.1 h with hfields | ⟨_, -, h⟩
      · exact hfields
      · cases h
  · rintro ⟨hname, hfields⟩
    rw [layOut, checkName_eq_ok.2 hname, hfields]
    rfl

/-! ## One struct for each name -/

/-- On its own, too, a struct is laid out as it was asked for. -/
theorem layOut_none_ok {name : String} {fields : List Variable} {s : StructType}
    (h : layOut name none fields = .ok s) :
    s = .root name fields ∧ checkFields name none [] fields = .ok () := by
  obtain ⟨_, -, h⟩ := bind_eq_ok.1 h
  obtain ⟨_, hfields, h⟩ := bind_eq_ok.1 h
  exact ⟨(pure_eq_ok.1 h).symm, hfields⟩

theorem notMem_of_takenBy? {name field : String} {base : Option StructType}
    {earlier : List Variable} (h : takenBy? name base earlier field = none) :
    field ∉ earlier.map (·.name) := by
  intro hmem
  unfold takenBy? at h
  rw [if_pos (by simpa using hmem)] at h
  cases h

/-- Fields that pass have different names, also from those in front. -/
theorem names_nodup_of_checkFields {name : String} {base : Option StructType}
    {earlier fields : List Variable} (h : checkFields name base earlier fields = .ok ()) :
    (fields.map (·.name)).Nodup ∧ ∀ f ∈ fields, f.name ∉ earlier.map (·.name) := by
  induction fields generalizing earlier with
  | nil => simp
  | cons f fs ih =>
    rw [checkFields] at h
    obtain ⟨-, h⟩ := check_bind_eq_ok.1 h
    cases htaken : takenBy? name base earlier f.name with
    | some d =>
      rw [htaken] at h
      cases h
    | none =>
      rw [htaken] at h
      -- by then `f` is among the earlier fields, so no later one has its name
      obtain ⟨hnodup, hfresh⟩ := ih h
      simp only [List.map_append, List.map_singleton, List.mem_append, List.mem_singleton,
        not_or] at hfresh
      refine ⟨List.nodup_cons.2 ⟨fun hmem => ?_, hnodup⟩, ?_⟩
      · obtain ⟨g, hg, hname⟩ := List.mem_map.1 hmem
        exact (hfresh g hg).2 hname
      · exact List.forall_mem_cons.2 ⟨notMem_of_takenBy? htaken, fun g hg => (hfresh g hg).1⟩

/-- A name that a struct declares on top of another is new there. -/
theorem not_hasField_of_layOut {name : String} {base s : StructType} {fields : List Variable}
    (h : layOut name (some base) fields = .ok s) {f : Variable} (hf : f ∈ fields) :
    f.name ≠ baseField ∧ ¬ base.HasField f.name :=
  ((checkFields_eq_ok.1 (exists_layOut_iff.1 ⟨s, h⟩).2).1 f hf).2.2

/-- What a struct declares is among its fields. -/
theorem mem_fields {s : StructType} {f : Variable} (hf : f ∈ s.declared) : f ∈ s.fields := by
  cases s with
  | root => exact hf
  | extension => exact List.mem_cons_of_mem _ hf

theorem isSome_field? {s : StructType} {field : String} :
    (s.field? field).isSome = true ↔ ∃ f ∈ s.fields, f.name = field := by
  simp [field?]

namespace LaidOut

variable {s t : StructType}

theorem of_mem_chain (h : s.LaidOut) (ht : t ∈ s.chain) : t.LaidOut := by
  induction h with
  | @root name fields s h =>
    obtain ⟨rfl, -⟩ := layOut_none_ok h
    obtain rfl := List.mem_singleton.1 ht
    exact .root h
  | extension hbase h ih =>
    obtain rfl := layOut_ok h
    rcases List.mem_cons.1 ht with rfl | ht
    · exact .extension hbase h
    · exact ih ht

/-- Among the structs of the chain a field's name belongs to one alone. -/
theorem filter_chain (h : s.LaidOut) (ht : t ∈ s.chain) {f : Variable} (hf : f ∈ t.fields)
    (hname : f.name ≠ baseField) :
    s.chain.filter (fun u => (u.field? f.name).isSome) = [t] := by
  have hown : (t.field? f.name).isSome = true := isSome_field?.2 ⟨f, hf, rfl⟩
  induction h with
  | root h =>
    obtain ⟨rfl, -⟩ := layOut_none_ok h
    obtain rfl := List.mem_singleton.1 ht
    exact List.filter_eq_self.2 fun u hu => List.mem_singleton.1 hu ▸ hown
  | @extension name base s fields hbase h ih =>
    obtain rfl := layOut_ok h
    rw [chain]
    rcases List.mem_cons.1 ht with rfl | ht
    · -- a name that the last struct declares is in none above
      have hnew : f ∈ fields := (List.mem_cons.1 hf).resolve_left fun heq => hname (heq ▸ rfl)
      rw [List.filter_cons, if_pos hown, List.filter_eq_nil_iff.2]
      intro u hu hfield
      exact (not_hasField_of_layOut h hnew).2 ⟨u, hu, isSome_field?.1 hfield⟩
    · have hlacks : ¬ ((StructType.extension name base fields).field? f.name).isSome = true := by
        intro hfield
        obtain ⟨g, hg, hgname⟩ := isSome_field?.1 hfield
        rcases List.mem_cons.1 hg with rfl | hg
        · exact hname hgname.symm
        · exact (not_hasField_of_layOut h hg).2 ⟨t, ht, f, hf, hgname.symm⟩
      rw [List.filter_cons, if_neg hlacks, ih ht]

/-- That struct declares the field for every struct from there on. -/
theorem declaring?_eq (h : s.LaidOut) (ht : t ∈ s.chain) {f : Variable} (hf : f ∈ t.fields)
    (hname : f.name ≠ baseField) : s.declaring? f.name = some t := by
  rw [declaring?, ← List.head?_filter, h.filter_chain ht hf hname, List.head?_cons]

/-- What the structs of a chain declare has different names. -/
theorem declared_names_nodup (h : s.LaidOut) :
    ((s.chain.reverse.flatMap (·.declared)).map (·.name)).Nodup := by
  induction h with
  | root h =>
    obtain ⟨rfl, hfields⟩ := layOut_none_ok h
    simpa [chain, declared] using (names_nodup_of_checkFields hfields).1
  | @extension name base s fields hbase h ih =>
    have hfields := (exists_layOut_iff.1 ⟨s, h⟩).2
    obtain rfl := layOut_ok h
    rw [chain, List.reverse_cons, List.flatMap_append, List.flatMap_singleton, List.map_append]
    -- a name of the new struct that a base declares would have been refused
    refine ih.append (names_nodup_of_checkFields hfields).1 fun n hold hnew => ?_
    obtain ⟨f, hf, rfl⟩ := List.mem_map.1 hnew
    obtain ⟨g, hg, hname⟩ := List.mem_map.1 hold
    obtain ⟨t, ht, hg⟩ := List.mem_flatMap.1 hg
    exact (not_hasField_of_layOut h hf).2 ⟨t, List.mem_reverse.1 ht, g, mem_fields hg, hname⟩

end LaidOut

/-- On top of a chain a struct is laid out just where its name is an identifier, its fields can be
stored, and their names are different, `_` not among them, and new in the chain. It has the
extended struct by value, `const`, in front of its fields. If it is refused for a name, the name is
that of the first field that breaks this, and it is reported with the nearest struct that has it,
from the new struct on. So along a chain each name, but for `_`, is in one struct alone, which is
the one that declares it for the struct itself and for all below it. -/
theorem layOut_decides {base : StructType} (hbase : base.LaidOut) (name : String)
    (fields : List Variable) :
    ((∃ s, layOut name (some base) fields = .ok s) ↔
      isIdentifier name = true ∧ (∀ f ∈ fields, f.isVoid = false ∧ f.quals.storage = none) ∧
        (fields.map (·.name)).Nodup ∧
        ∀ f ∈ fields, f.name ≠ "_" ∧ ∀ t ∈ base.chain, ∀ g ∈ t.fields, g.name ≠ f.name) ∧
    (∀ s, layOut name (some base) fields = .ok s → s.name = name ∧ s.base? = some base ∧
      s.fields = { name := "_", type := .struct base.name, quals := { const := true } } :: fields) ∧
    (∀ struct field declaredIn,
      layOut name (some base) fields = .error (.duplicateField struct field declaredIn) ↔
        struct = name ∧ ∃ front f rest, fields = front ++ f :: rest ∧ f.name = field ∧
          (∃ s, layOut name (some base) front = .ok s) ∧
          (f.isVoid = false ∧ f.quals.storage = none) ∧
          ((extension name base front).declaring? field).map (·.name) = some declaredIn) ∧
    ∀ t ∈ base.chain, ∀ f ∈ t.fields, f.name ≠ "_" →
      base.chain.filter (fun u => (u.field? f.name).isSome) = [t] ∧
      ∀ s ∈ base.chain, t ∈ s.chain → s.declaring? f.name = some t := by
  refine ⟨?_, fun s h => ?_, fun struct field declaredIn => ?_, fun t ht f hf hname => ?_⟩
  · rw [exists_layOut_iff, checkFields_eq_ok]
    simp only [Variable.checkStorable_eq_ok, HasField, baseField, List.map_nil,
      List.not_mem_nil, not_false_eq_true, true_and, not_exists, not_and]
    constructor
    · rintro ⟨hident, hfields, hnodup⟩
      exact ⟨hident, fun f hf => (hfields f hf).1, hnodup, fun f hf => (hfields f hf).2⟩
    · rintro ⟨hident, hstorable, hnodup, hfresh⟩
      exact ⟨hident, fun f hf => ⟨hstorable f hf, hfresh f hf⟩, hnodup⟩
  · obtain rfl := layOut_ok h
    exact ⟨rfl, rfl, rfl⟩
  · -- the fields in front of the one that is refused could be laid out on their own
    rw [layOut_eq_duplicate, checkFields_eq_duplicate]
    simp only [exists_layOut_iff, ← takenBy?_eq_declaring?, List.nil_append,
      Variable.checkStorable_eq_ok]
    constructor
    · rintro ⟨hident, rfl, front, f, rest, hsplit, hname, hfront, hf, htaken⟩
      exact ⟨rfl, front, f, rest, hsplit, hname, ⟨hident, hfront⟩, hf, htaken⟩
    · rintro ⟨rfl, front, f, rest, hsplit, hname, ⟨hident, hfront⟩, hf, htaken⟩
      exact ⟨hident, rfl, front, f, rest, hsplit, hname, hfront, hf, htaken⟩
  · exact ⟨hbase.filter_chain ht hf hname,
      fun s hs hts => (hbase.of_mem_chain hs).declaring?_eq hts hf hname⟩

namespace Sample

def position : Variable :=
  { name := "position", type := .int }

def width : Variable :=
  { name := "width", type := .int }

def label : Variable :=
  { name := "label", type := .primitive .char, pointer := true }

def widget : StructType :=
  .root "Widget" [position]

def panel : StructType :=
  .extension "Panel" widget [width]

theorem laidOut_panel : panel.LaidOut := by
  have hwidget : layOut "Widget" none [position] = .ok widget := rfl
  have hpanel : layOut "Panel" (some widget) [width] = .ok panel := rfl
  exact .extension (.root hwidget) hpanel

end Sample

/-- A button on top of the panel can have a label, but no position of its own: the widget has
one. -/
theorem layOut_decides_sample : Sample.panel.LaidOut ∧
    (∃ s, layOut "Button" (some Sample.panel) [Sample.label] = .ok s) ∧
    layOut "Button" (some Sample.panel) [Sample.label, Sample.position]
      = .error (.duplicateField "Button" "position" "Widget") ∧
    Sample.panel.declaring? "position" = some Sample.widget := by
  have hpanel := Sample.laidOut_panel
  have hlabel : ∃ s, layOut "Button" (some Sample.panel) [Sample.label] = .ok s :=
    (layOut_decides hpanel "Button" [Sample.label]).1.2 (by decide)
  obtain ⟨-, -, hduplicate, hone⟩ :=
    layOut_decides hpanel "Button" [Sample.label, Sample.position]
  refine ⟨hpanel, hlabel, (hduplicate _ _ _).2 ?_, ?_⟩
  · exact ⟨rfl, [Sample.label], Sample.position, [], rfl, rfl, hlabel, by decide, by decide⟩
  · exact (hone Sample.widget (by decide) Sample.position (by decide) (by decide)).2 Sample.panel
      (by decide) (by decide)

end ClassForge.C.StructType

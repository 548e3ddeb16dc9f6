import ClassForge.C.Struct
import ClassForge.Proofs.C.Identifier

/-!
# Structs on top of structs

What laying out a struct on top of another gives, and where a field of the result is declared.
-/

namespace ClassForge.C

namespace StructType

/-- A struct is laid out only under a C identifier. -/
theorem isIdentifier_of_layOut {name : String} {base : Option StructType} {s : StructType}
    {fields : List Variable} (h : layOut name base fields = .ok s) : isIdentifier name = true := by
  obtain ⟨_, hname, -⟩ := bind_eq_ok.1 h
  exact checkName_eq_ok.1 hname

/-- A struct is laid out as it was asked for, or not at all. -/
theorem layOut_ok {name : String} {base s : StructType} {fields : List Variable}
    (h : layOut name (some base) fields = .ok s) : s = .extension name base fields := by
  obtain ⟨_, -, h⟩ := bind_eq_ok.1 h
  obtain ⟨_, -, h⟩ := bind_eq_ok.1 h
  exact (pure_eq_ok.1 h).symm

/-- `s` opens with the struct that it extends: by value, `const`, as the field `_`. -/
def Embeds (s base : StructType) : Prop :=
  s.base? = some base ∧
    s.fields.head? = some { name := "_", type := .struct base.name, quals := { const := true } }

theorem embeds_extension (name : String) (base : StructType) (fields : List Variable) :
    (extension name base fields).Embeds base :=
  ⟨rfl, rfl⟩

/-- A field that a struct has itself is declared there. -/
theorem declaring?_of_mem {s : StructType} {f : Variable} (h : f ∈ s.fields) :
    s.declaring? f.name = some s := by
  have hfield : (s.field? f.name).isSome := List.find?_isSome.2 ⟨f, h, by simp⟩
  cases s with
  | root name fields => simp [declaring?, chain, hfield]
  | extension name base fields => simp [declaring?, chain, hfield]

/-- A field that a struct does not have itself is declared where the extended struct has it. -/
theorem declaring?_extension {name : String} {base : StructType} {fields : List Variable}
    {field : String} (h : ∀ f ∈ (extension name base fields).fields, f.name ≠ field) :
    (extension name base fields).declaring? field = base.declaring? field := by
  have hfield : (extension name base fields).field? field = none :=
    List.find?_eq_none.2 fun f hf => by simpa using h f hf
  simp [declaring?, chain, hfield]

/-! ## Names that are free -/

/-- The struct, or one that it extends, has a field of a name. -/
def HasField (s : StructType) (field : String) : Prop :=
  ∃ t ∈ s.chain, ∃ f ∈ t.fields, f.name = field

theorem declaring?_eq_none {s : StructType} {field : String} :
    s.declaring? field = none ↔ ¬ s.HasField field := by
  simp [declaring?, field?, HasField]

/-- A name is free when no field in front has it, it is not that of the embedded struct, and no
field of the chain has it. -/
theorem takenBy?_eq_none {name field : String} {base : StructType} {earlier : List Variable} :
    takenBy? name (some base) earlier field = none ↔
      field ∉ earlier.map (·.name) ∧ field ≠ baseField ∧ ¬ base.HasField field := by
  unfold takenBy?
  split
  next hearlier => simpa using fun hnone => absurd hearlier (by simpa using hnone)
  next hearlier =>
    have hfresh : field ∉ earlier.map (·.name) := by simpa using hearlier
    by_cases hbase : field = baseField
    · simp [hbase]
    · simp [hbase, hfresh, declaring?_eq_none]

theorem of_takenBy?_eq_some {name field declaredIn : String} {base : StructType}
    {earlier : List Variable} (h : takenBy? name (some base) earlier field = some declaredIn) :
    field ∈ earlier.map (·.name) ∨ field = baseField ∨ base.HasField field := by
  by_cases hearlier : field ∈ earlier.map (·.name)
  · exact .inl hearlier
  by_cases hbase : field = baseField
  · exact .inr (.inl hbase)
  refine .inr (.inr (Classical.byContradiction fun hfield => ?_))
  rw [takenBy?_eq_none.2 ⟨hearlier, hbase, hfield⟩] at h
  cases h

/-- Fields pass when each can be stored and their names are all different and free. -/
theorem checkFields_eq_ok {name : String} {base : StructType} {earlier fields : List Variable} :
    checkFields name (some base) earlier fields = .ok () ↔
      (∀ f ∈ fields, f.checkStorable "field" = .ok () ∧ f.name ∉ earlier.map (·.name) ∧
        f.name ≠ baseField ∧ ¬ base.HasField f.name) ∧ (fields.map (·.name)).Nodup := by
  induction fields generalizing earlier with
  | nil => simp [checkFields]
  | cons f fs ih =>
    rw [checkFields, check_bind_eq_ok, List.forall_mem_cons, List.map_cons, List.nodup_cons]
    -- the fields behind `f` are checked with `f` among the earlier ones
    cases htaken : takenBy? name (some base) earlier f.name with
    | some declaredIn =>
      have hused : ¬ (f.name ∉ earlier.map (·.name) ∧ f.name ≠ baseField ∧
          ¬ base.HasField f.name) := by
        rintro ⟨hearlier, hbase, hfield⟩
        rcases of_takenBy?_eq_some htaken with h | h | h
        · exact hearlier h
        · exact hbase h
        · exact hfield h
      refine ⟨fun h => ?_, fun h => absurd h.1.1.2 hused⟩
      cases h.2
    | none =>
      have hfree := takenBy?_eq_none.1 htaken
      simp only [ih, List.map_append, List.map_singleton, List.mem_append, List.mem_singleton,
        not_or]
      constructor
      · rintro ⟨hf, hfs, hnodup⟩
        refine ⟨⟨⟨hf, hfree⟩, fun g hg => ?_⟩, fun hmem => ?_, hnodup⟩
        · exact ⟨(hfs g hg).1, (hfs g hg).2.1.1, (hfs g hg).2.2⟩
        · obtain ⟨g, hg, hname⟩ := List.mem_map.1 hmem
          exact (hfs g hg).2.1.2 hname
      · rintro ⟨⟨⟨hf, -⟩, hfs⟩, hfresh, hnodup⟩
        refine ⟨hf, fun g hg => ?_, hnodup⟩
        have hne : g.name ≠ f.name := fun hname => hfresh (List.mem_map.2 ⟨g, hg, hname⟩)
        exact ⟨(hfs g hg).1, ⟨(hfs g hg).2.1, hne⟩, (hfs g hg).2.2⟩

/-- Fields are refused at the first that cannot be stored, or whose name is not free behind those in
front of it. -/
theorem checkFields_error {name : String} {base : StructType} {earlier fields : List Variable}
    {e : TypeError} (h : checkFields name (some base) earlier fields = .error e) :
    ∃ front f rest, fields = front ++ f :: rest ∧
      (f.checkStorable "field" = .error e ∨
        (f.name ∈ (earlier ++ front).map (·.name) ∨ f.name = baseField ∨ base.HasField f.name) ∧
          ∃ declaredIn, e = .duplicateField name f.name declaredIn) := by
  induction fields generalizing earlier with
  | nil => cases h
  | cons f fs ih =>
    rw [checkFields] at h
    rcases bind_eq_error.1 h with hf | ⟨_, -, h⟩
    · exact ⟨[], f, fs, rfl, .inl hf⟩
    · split at h
      next declaredIn htaken =>
        have hused := of_takenBy?_eq_some htaken
        rw [← List.append_nil earlier] at hused
        exact ⟨[], f, fs, rfl, .inr ⟨hused, declaredIn, (Except.error.inj h).symm⟩⟩
      next =>
        obtain ⟨front, g, rest, rfl, hg⟩ := ih h
        exact ⟨f :: front, g, rest, rfl, by simpa using hg⟩

theorem exists_layOut_iff {name : String} {base : StructType} {fields : List Variable} :
    (∃ s, layOut name (some base) fields = .ok s) ↔
      isIdentifier name = true ∧ checkFields name (some base) [] fields = .ok () := by
  constructor
  · rintro ⟨s, h⟩
    obtain ⟨hname, h⟩ := check_bind_eq_ok.1 h
    exact ⟨checkName_eq_ok.1 hname, (check_bind_eq_ok.1 h).1⟩
  · rintro ⟨hname, hfields⟩
    refine ⟨extension name base fields, ?_⟩
    rw [layOut, checkName_eq_ok.2 hname, hfields]
    rfl

theorem layOut_error {name : String} {base : StructType} {fields : List Variable} {e : TypeError}
    (h : layOut name (some base) fields = .error e) :
    isIdentifier name = false ∧ e = .badName .structTag name ∨
      checkFields name (some base) [] fields = .error e := by
  rcases bind_eq_error.1 h with hname | ⟨_, -, h⟩
  · exact .inl (checkName_eq_error.1 hname)
  · rcases bind_eq_error.1 h with hfields | ⟨_, -, h⟩
    · exact .inr hfields
    · cases h

end StructType

end ClassForge.C

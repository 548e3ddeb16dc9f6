import ClassForge.Descriptor.Read
import ClassForge.Proofs.Descriptor.Form
import ClassForge.Proofs.Except
import ClassForge.Proofs.Json.Members
import ClassForge.Proofs.Keyed

/-!
# What becomes of a descriptor

A descriptor goes through two descriptions of the format: the tables of shapes, which are checked
first, and the readers of the records. Both are measured here against the one format
(`Form.module`): the check fails where some value is of another sort, the readers where anything is
wrong. So the two together tell the sorts of faults apart, and refuse nothing else.
-/

namespace ClassForge.Descriptor

open Json (KeysDistinct)

/-! ### The check of shapes -/

mutual

/-- What the tables of shapes keep of a form. -/
def Form.shape : Form → Shape
  | .string => .string
  | .boolean => .boolean
  | .list item => .list item.shape
  | .record entries => .record (Form.shapes entries)

/-- What the tables keep of the keys of a record. -/
def Form.shapes : List (String × Presence × Form) → List (String × Shape)
  | [] => []
  | (k, _, f) :: entries => (k, f.shape) :: Form.shapes entries

end

/-- The tables of shapes are those of the format. -/
theorem shape_module : Form.module.shape = moduleShape :=
  rfl

theorem checkItems_eq_ok {check : List Step → Json → Except ShapeError Unit} {P : Json → Prop}
    {items : List Json} (h : ∀ v ∈ items, ∀ path, check path v = .ok () ↔ P v)
    (path : List Step) (i : Nat) : checkItems check path i items = .ok () ↔ ∀ v ∈ items, P v := by
  induction items generalizing i with
  | nil => simp [checkItems]
  | cons v vs ih =>
    obtain ⟨hv, hvs⟩ := List.forall_mem_cons.1 h
    rw [checkItems, check_bind_eq_ok, hv, ih hvs, List.forall_mem_cons]

namespace Shape

variable {shape : Shape} {shapes : List (String × Shape)} {members : List (String × Json)}
  {path : List Step} {v : Json}

/-- A key that is missing, or `null`, is passed over. -/
theorem checkMembers_cons_of_skip {k : String}
    (hskip : ∀ v, members.lookup k = some v → v = .null) :
    checkMembers ((k, shape) :: shapes) path members = checkMembers shapes path members := by
  rw [checkMembers]
  split
  next => rfl
  next => rfl
  next v hnull hlookup => exact absurd (hskip v hlookup) hnull

theorem checkMembers_cons_of_lookup {k : String} (hlookup : members.lookup k = some v)
    (hnull : v ≠ .null) : checkMembers ((k, shape) :: shapes) path members =
      shape.check (path ++ [.key k]) v >>= fun _ => checkMembers shapes path members := by
  rw [checkMembers]
  split
  next hnone => cases hnone.symm.trans hlookup
  next hnone => exact absurd (Option.some.inj (hlookup.symm.trans hnone)) hnull
  next w _ hw =>
    cases hlookup.symm.trans hw
    rfl

/-- A key is passed over, or has a value that is checked. -/
theorem skip_or_lookup (members : List (String × Json)) (k : String) :
    (∀ v, members.lookup k = some v → v = .null) ∨
      ∃ v, members.lookup k = some v ∧ v ≠ .null := by
  by_cases h : ∃ v, members.lookup k = some v ∧ v ≠ .null
  · exact .inr h
  · exact .inl fun v hv => not_not.1 fun hnull => h ⟨v, hv, hnull⟩

theorem checkMembers_eq_ok : checkMembers shapes path members = .ok () ↔
    ∀ m ∈ shapes, ∀ v, members.lookup m.1 = some v → v ≠ .null →
      m.2.check (path ++ [.key m.1]) v = .ok () := by
  induction shapes with
  | nil => simp [checkMembers]
  | cons m shapes ih =>
    obtain ⟨k, shape⟩ := m
    rw [List.forall_mem_cons, ← ih]
    rcases skip_or_lookup members k with hskip | ⟨v, hlookup, hnull⟩
    · rw [checkMembers_cons_of_skip hskip, and_iff_right]
      exact fun v hv hnull => absurd (hskip v hv) hnull
    · rw [checkMembers_cons_of_lookup hlookup hnull, check_bind_eq_ok]
      simp [hlookup, hnull]

end Shape

theorem Form.shapes_eq_map (entries : List (String × Presence × Form)) :
    Form.shapes entries = entries.map fun e => (e.1, e.2.2.shape) := by
  induction entries with
  | nil => rfl
  | cons e entries ih => rw [Form.shapes, ih, List.map_cons]

theorem checkShapes_eq_ok {members : List (String × Json)} {P : Form → Json → Prop}
    (hkeys : (members.map Prod.fst).Nodup) {entries : List (String × Presence × Form)}
    (h : ∀ e ∈ entries, ∀ m ∈ members, ∀ path, e.2.2.shape.check path m.2 = .ok () ↔ P e.2.2 m.2)
    (path : List Step) : Shape.checkMembers (Form.shapes entries) path members = .ok () ↔
      ∀ k p f v, (k, p, f) ∈ entries → (k, v) ∈ members → v ≠ .null → P f v := by
  rw [Form.shapes_eq_map, Shape.checkMembers_eq_ok, List.forall_mem_map]
  -- the check looks a key up, the form speaks of members: with distinct keys these are one
  simp only [lookup_eq_some_iff_mem hkeys]
  constructor
  · intro hcheck k p f v he hm hnull
    exact (h _ he _ hm _).1 (hcheck _ he v hm hnull)
  · rintro hP ⟨k, p, f⟩ he v hm hnull
    exact (h _ he _ hm _).2 (hP k p f v he hm hnull)

theorem check_eq_ok (f : Form) {v : Json} (hv : v.KeysDistinct) (path : List Step) :
    f.shape.check path v = .ok () ↔ ¬f.Mistyped v := by
  -- by the form; a value of another kind than the form's fails and is mistyped
  induction f using Form.induct generalizing v path with
  | string =>
    rw [Form.not_mistyped_leaf (.inl rfl)]
    cases v <;> simp [Form.shape, Shape.check, Json.kind, Form.kind]
  | boolean =>
    rw [Form.not_mistyped_leaf (.inr rfl)]
    cases v <;> simp [Form.shape, Shape.check, Json.kind, Form.kind]
  | list item ih =>
    cases hv with
    | array hitems =>
      rw [Form.not_mistyped_array]
      exact checkItems_eq_ok (fun v hv => ih (hitems v hv)) path 0
    | null | bool | number | string | object =>
      exact iff_of_false (by simp [Form.shape, Shape.check])
        (not_not_intro (Form.mistyped_of_kind_ne (by simp [Json.kind, Form.kind])))
  | record entries ih =>
    cases hv with
    | object hkeys hvalues =>
      rw [Form.not_mistyped_object]
      exact checkShapes_eq_ok hkeys (fun e he m hm => ih e he (hvalues m hm)) path
    | null | bool | number | string | array =>
      exact iff_of_false (by simp [Form.shape, Shape.check])
        (not_not_intro (Form.mistyped_of_kind_ne (by simp [Json.kind, Form.kind])))

/-! ### The readers of the records -/

variable {α β : Type} {f : Form} {entries : List (String × Presence × Form)}

/-- A reader gives a result on the values with which nothing is wrong, and on no others. -/
def Reads (read : Json → Except DataError α) (f : Form) : Prop :=
  ∀ v : Json, v.KeysDistinct → ((∃ a, read v = .ok a) ↔ f.Accepts v)

/-- A record takes the members that an object with these keys may have, and no others, whatever it
holds before. -/
def Takes (take : α → String → Json → Except DataError α)
    (entries : List (String × Presence × Form)) : Prop :=
  ∀ (record : α) (k : String) (v : Json), v.KeysDistinct →
    ((∃ record', take record k v = .ok record') ↔ Form.Admits entries k v)

theorem reads_string : Reads readString .string := by
  intro v _
  rw [Form.accepts_leaf (.inl rfl)]
  cases v <;> simp [readString, Json.kind, Form.kind]

theorem reads_bool : Reads readBool .boolean := by
  intro v _
  rw [Form.accepts_leaf (.inr rfl)]
  cases v <;> simp [readBool, Json.kind, Form.kind]

theorem Reads.items {read : Json → Except DataError α} (h : Reads read f) {items : List Json}
    (hitems : ∀ v ∈ items, v.KeysDistinct) :
    (∃ as, readItems read items = .ok as) ↔ ∀ v ∈ items, f.Accepts v := by
  induction items with
  | nil => simp [readItems]
  | cons v vs ih =>
    obtain ⟨hv, hvs⟩ := List.forall_mem_cons.1 hitems
    rw [readItems, exists_bind_eq_ok, List.forall_mem_cons, ← h v hv, ← ih hvs]
    simp only [exists_bind_pure_eq_ok]
    exact exists_and_right

theorem Reads.list {read : Json → Except DataError α} (h : Reads read f) :
    Reads (readList read) (.list f) := by
  intro v hv
  cases hv with
  | array hitems =>
    rw [Form.accepts_array]
    exact h.items hitems
  | null | bool | number | string | object =>
    exact iff_of_false (by simp [readList]) fun haccepts => nomatch haccepts.kind_eq

/-- A reader for the values that may stand for a key. -/
def ReadsFor (read : Json → Except DataError α) (p : Presence) (f : Form) : Prop :=
  ∀ v : Json, v.KeysDistinct → ((∃ a, read v = .ok a) ↔ Form.Allows p f v)

theorem Reads.required {read : Json → Except DataError α} (h : Reads read f) :
    ReadsFor read .required f :=
  h

theorem Reads.optional {read : Json → Except DataError α} (h : Reads read f) :
    ReadsFor read .optional f :=
  h

theorem Reads.nullable {read : Json → Except DataError α} (h : Reads read f) :
    ReadsFor (readOption read) .nullable f := by
  intro v hv
  by_cases hnull : v = .null
  · subst hnull
    simp [readOption, Form.Allows]
  · have hread : readOption read v = some <$> read v := readOption.eq_2 read v hnull
    rw [Form.allows_of_ne_null hnull, ← h v hv, hread]
    simp [map_eq_ok]

theorem requireKeys_eq_ok {members : List (String × Json)} {keys : List String} :
    requireKeys members keys = .ok () ↔ ∀ k ∈ keys, ∃ m ∈ members, m.1 = k := by
  -- a lookup finds nothing exactly where no member has the key
  have hlookup (k : String) : (members.lookup k).isNone = true ↔ ¬∃ m ∈ members, m.1 = k := by
    rw [Option.isNone_iff_eq_none, List.lookup_eq_none_iff]
    simp only [bne_iff_ne, ne_comm, not_exists, not_and]
  unfold requireKeys
  split
  next k hfind =>
    have hnone : (members.lookup k).isNone = true :=
      List.find?_some (p := fun k => (members.lookup k).isNone) hfind
    have hmissing := (hlookup k).1 hnone
    exact iff_of_false nofun fun h => hmissing (h k (List.mem_of_find?_eq_some hfind))
  next hfind =>
    refine iff_of_true rfl fun k hk => ?_
    by_contra hmissing
    exact List.find?_eq_none.1 hfind k hk ((hlookup k).2 hmissing)

theorem Takes.members {take : α → String → Json → Except DataError α} (h : Takes take entries)
    {members : List (String × Json)} (hvalues : ∀ m ∈ members, m.2.KeysDistinct) (record : α) :
    (∃ record', readMembers take record members = .ok record') ↔
      ∀ m ∈ members, Form.Admits entries m.1 m.2 := by
  induction members generalizing record with
  | nil => simp [readMembers]
  | cons m ms ih =>
    obtain ⟨hm, hms⟩ := List.forall_mem_cons.1 hvalues
    simp only [readMembers, exists_bind_eq_ok, ih hms, List.forall_mem_cons, ← h record m.1 m.2 hm]
    exact exists_and_right

/-- The keys that must be there. -/
def Form.requiredKeys (entries : List (String × Presence × Form)) : List String :=
  entries.filterMap fun (k, p, _) => if p = .required then some k else none

theorem Form.mem_requiredKeys {k : String} :
    k ∈ Form.requiredKeys entries ↔ ∃ f, (k, .required, f) ∈ entries := by
  simp only [requiredKeys, List.mem_filterMap]
  constructor
  · rintro ⟨⟨k', p, f⟩, hmem, h⟩
    split at h
    next hp =>
      cases h
      exact ⟨f, hp ▸ hmem⟩
    next => cases h
  · rintro ⟨f, hmem⟩
    exact ⟨_, hmem, rfl⟩

theorem Takes.reads {take : α → String → Json → Except DataError α} (h : Takes take entries)
    {record : α} {expected : String} :
    Reads (readObject take record (Form.requiredKeys entries) expected) (.record entries) := by
  intro v hv
  cases hv with
  | @object members hkeys hvalues =>
    have hrequired : requireKeys members (Form.requiredKeys entries) = .ok () ↔
        ∀ k f, (k, .required, f) ∈ entries → ∃ m ∈ members, m.1 = k := by
      simp only [requireKeys_eq_ok, Form.mem_requiredKeys, forall_exists_index]
    rw [Form.accepts_object, ← h.members hvalues record, ← hrequired, readObject, exists_bind_eq_ok]
    simp only [check_bind_eq_ok]
    simp [pure_eq_ok]
  | null | bool | number | string | array =>
    exact iff_of_false (by simp [readObject]) fun haccepts => nomatch haccepts.kind_eq

/-! ### The records -/

/-- In a table that has each key once, a key has what stands at it there. -/
theorem Form.admits_iff_lookup (hkeys : (entries.map Prod.fst).Nodup) {k : String} {v : Json} :
    Form.Admits entries k v ↔ ∃ p f, entries.lookup k = some (p, f) ∧ Form.Allows p f v := by
  simp only [lookup_eq_some_iff_mem hkeys, Form.Admits]
  constructor
  · rintro ⟨⟨⟨k, p, f⟩, hmem, rfl⟩, h⟩
    exact ⟨p, f, hmem, h p f hmem⟩
  · rintro ⟨p, f, hmem, h⟩
    refine ⟨⟨_, hmem, rfl⟩, fun p' f' hmem' => ?_⟩
    cases (lookup_eq_some_iff_mem hkeys).2 hmem' ▸ (lookup_eq_some_iff_mem hkeys).2 hmem
    exact h

/-- A member of a known key is taken when its value may stand there. -/
theorem ReadsFor.known {read : Json → Except DataError α} {p : Presence} (h : ReadsFor read p f)
    {g : α → β} {k : String} {v : Json} (hv : v.KeysDistinct)
    (hlookup : entries.lookup k = some (p, f)) :
    (∃ b, (read v >>= fun a => pure (g a)) = .ok b) ↔
      ∃ p f, entries.lookup k = some (p, f) ∧ Form.Allows p f v := by
  rw [exists_bind_pure_eq_ok, h v hv, hlookup]
  simp

/-- No member of another key is taken. -/
theorem not_known {e : DataError} {k : String} {v : Json} (h : ∀ entry ∈ entries, k ≠ entry.1) :
    (∃ b, (.error e : Except DataError β) = .ok b) ↔
      ∃ p f, entries.lookup k = some (p, f) ∧ Form.Allows p f v := by
  have hlookup : entries.lookup k = none :=
    List.lookup_eq_none_iff.2 fun entry hentry => bne_iff_ne.2 (h entry hentry)
  simp [hlookup]

theorem takes_variable : Takes VariableEntry.take Form.variableEntries := by
  intro record k v hv
  rw [Form.admits_iff_lookup (by decide)]
  unfold VariableEntry.take
  -- one case for each key that the reader knows, and one for all others
  split
  · exact reads_string.required.known hv rfl
  · exact reads_string.required.known hv rfl
  · exact reads_string.list.optional.known hv rfl
  · exact not_known (by simp_all [Form.variableEntries])

theorem reads_variable : Reads readVariable (.record Form.variableEntries) :=
  takes_variable.reads

theorem takes_return : Takes ReturnEntry.take Form.returnEntries := by
  intro record k v hv
  rw [Form.admits_iff_lookup (by decide)]
  unfold ReturnEntry.take
  split
  · exact reads_string.required.known hv rfl
  · exact reads_string.list.optional.known hv rfl
  · exact not_known (by simp_all [Form.returnEntries])

theorem reads_return : Reads readReturn (.record Form.returnEntries) :=
  takes_return.reads

theorem takes_function : Takes FunctionEntry.take Form.functionEntries := by
  intro record k v hv
  rw [Form.admits_iff_lookup (by decide)]
  unfold FunctionEntry.take
  split
  · exact reads_string.required.known hv rfl
  · exact reads_variable.list.optional.known hv rfl
  · exact reads_return.nullable.known hv rfl
  · exact reads_string.list.optional.known hv rfl
  · exact reads_string.nullable.known hv rfl
  · exact reads_string.nullable.known hv rfl
  · exact not_known (by simp_all [Form.functionEntries])

theorem reads_function : Reads readFunction (.record Form.functionEntries) :=
  takes_function.reads

theorem takes_class : Takes ClassEntry.take Form.classEntries := by
  intro record k v hv
  rw [Form.admits_iff_lookup (by decide)]
  unfold ClassEntry.take
  split
  · exact reads_string.required.known hv rfl
  · exact reads_string.list.optional.known hv rfl
  · exact reads_bool.optional.known hv rfl
  · exact reads_bool.optional.known hv rfl
  · exact reads_variable.list.optional.known hv rfl
  · exact reads_function.list.optional.known hv rfl
  · exact not_known (by simp_all [Form.classEntries])

theorem reads_class : Reads readClass (.record Form.classEntries) :=
  takes_class.reads

theorem takes_module : Takes take Form.moduleEntries := by
  intro record k v hv
  rw [Form.admits_iff_lookup (by decide)]
  unfold take
  split
  · exact reads_string.required.known hv rfl
  · exact reads_bool.optional.known hv rfl
  · exact reads_bool.optional.known hv rfl
  · exact reads_bool.optional.known hv rfl
  · exact reads_string.list.optional.known hv rfl
  · exact reads_string.list.optional.known hv rfl
  · exact reads_string.list.optional.known hv rfl
  · exact reads_string.list.optional.known hv rfl
  · exact reads_string.list.optional.known hv rfl
  · exact reads_class.list.optional.known hv rfl
  · exact reads_variable.list.optional.known hv rfl
  · exact reads_function.list.optional.known hv rfl
  · exact not_known (by simp_all [Form.moduleEntries])

theorem reads_module : Reads ofJson Form.module :=
  takes_module.reads

/-! ### The verdict -/

theorem checkShape_eq_ok {v : Json} (hv : v.KeysDistinct) :
    checkShape v = .ok () ↔ ¬Form.module.Mistyped v := by
  rw [checkShape, ← shape_module, check_eq_ok Form.module hv]

theorem ofValue_shape {v : Json} (hv : v.KeysDistinct) :
    (∃ e, ofValue v = .error (.shape e)) ↔ Form.module.Mistyped v := by
  rw [← not_iff_not, ← checkShape_eq_ok hv, ofValue]
  cases checkShape v with
  | error e => simp
  | ok => cases ofJson v <;> simp

theorem ofValue_ok {v : Json} (hv : v.KeysDistinct) :
    (∃ d, ofValue v = .ok d) ↔ ¬Form.module.Mistyped v ∧ ¬Form.module.Faulty v := by
  have hshape := checkShape_eq_ok hv
  rw [ofValue]
  cases hcheck : checkShape v with
  | error e =>
    rw [hcheck] at hshape
    exact iff_of_false (by simp) fun h => nomatch hshape.2 h.1
  | ok =>
    have hreads := reads_module v hv
    rw [Form.Accepts] at hreads
    rw [← hreads]
    cases ofJson v <;> simp

/-- There are two sorts of faults, and nothing else but a result. -/
theorem exists_data_iff (v : Json) :
    (∃ e, ofValue v = .error (.data e)) ↔
      ¬(∃ e, ofValue v = .error (.shape e)) ∧ ¬∃ d, ofValue v = .ok d := by
  rw [ofValue]
  cases checkShape v with
  | error e => simp
  | ok => cases ofJson v <;> simp

theorem ofValue_data {v : Json} (hv : v.KeysDistinct) :
    (∃ e, ofValue v = .error (.data e)) ↔ ¬Form.module.Mistyped v ∧ Form.module.Faulty v := by
  rw [exists_data_iff, ofValue_shape hv, ofValue_ok hv]
  exact and_congr_right fun htyped => by rw [not_and, imp_iff_right htyped, not_not]

/-- A value is refused for a sort exactly where some value in it is of another sort than the format
gives it; else it is refused for its keys exactly where the keys of some object in it are not those
of the format; else it is read. What a text holds is always a value with distinct keys. -/
theorem read_verdict :
    (∀ text v, Json.parse? text = some v → v.KeysDistinct ∧ parse text = ofValue v) ∧
      ∀ v : Json, v.KeysDistinct →
        ((∃ e, ofValue v = .error (.shape e)) ↔ Form.module.Mistyped v) ∧
        ((∃ e, ofValue v = .error (.data e)) ↔
          ¬Form.module.Mistyped v ∧ Form.module.Faulty v) ∧
        ((∃ d, ofValue v = .ok d) ↔ ¬Form.module.Mistyped v ∧ ¬Form.module.Faulty v) := by
  refine ⟨fun text v h => ⟨Json.keysDistinct_of_parse? h, ?_⟩, fun v hv => ?_⟩
  · rw [parse, h]
  · exact ⟨ofValue_shape hv, ofValue_data hv, ofValue_ok hv⟩

namespace Sample

/-- A `null` among the globals. -/
def nullGlobal : Json :=
  .object [("globals", .array [.null]), ("module", .string "Cell")]

/-- A method with a key that is unknown, and a `null` where one may stand. -/
def unknownKey : Json :=
  .object
    [("classes", .array [.object [("methods", .array [.object
        [("colour", .string "red"), ("name", .string "step"), ("returns", .null)]]),
      ("name", .string "Cell")]]),
     ("module", .string "Cell")]

/-- A function that returns nothing, with a body. -/
def plain : Json :=
  .object
    [("functions", .array [.object
        [("body", .string "return;"), ("name", .string "step"), ("returns", .null)]]),
     ("module", .string "Cell")]

end Sample

theorem read_verdict_sample :
    Form.module.Mistyped Sample.nullGlobal ∧
      (¬Form.module.Mistyped Sample.unknownKey ∧ Form.module.Faulty Sample.unknownKey) ∧
      ¬Form.module.Mistyped Sample.plain ∧ ¬Form.module.Faulty Sample.plain ∧
      parse (Sample.plain.compact) = ofValue Sample.plain := by
  obtain ⟨hread, hverdict⟩ := read_verdict
  have hnull := hread Sample.nullGlobal.compact Sample.nullGlobal rfl
  have hunknown := hread Sample.unknownKey.compact Sample.unknownKey rfl
  have hplain := hread Sample.plain.compact Sample.plain rfl
  refine ⟨(hverdict _ hnull.1).1.1 ⟨_, rfl⟩, (hverdict _ hunknown.1).2.1.1 ⟨_, rfl⟩, ?_⟩
  obtain ⟨htyped, hkeys⟩ := (hverdict _ hplain.1).2.2.1 ⟨_, rfl⟩
  exact ⟨htyped, hkeys, hplain.2⟩

end ClassForge.Descriptor

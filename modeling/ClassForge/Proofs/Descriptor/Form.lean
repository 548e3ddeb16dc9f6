import ClassForge.Json.Basic
import Mathlib.Tactic.ByContra

/-!
# The form of a descriptor

Which keys a descriptor has at every level, what sort of value stands for each, which of them must
be there and for which a `null` may stand. Two things can be wrong with a value of a form: it is of
another sort somewhere (`Mistyped`), or a record in it has the wrong keys (`Faulty`). Both speak
of the values that known keys and lists lead to; a `null` behind a key leads nowhere.
-/

namespace ClassForge.Descriptor

/-- What a key of a record asks for. -/
inductive Presence where
  /-- The key must be there, and no `null` may stand for it. -/
  | required
  /-- The key may be missing, but no `null` may stand for it. -/
  | optional
  /-- The key may be missing, which `null` says too. -/
  | nullable
deriving DecidableEq

/-- What a value in a descriptor looks like. -/
inductive Form where
  | string
  | boolean
  | list (item : Form)
  /-- An object, with the keys that are known in it. -/
  | record (entries : List (String × Presence × Form))

namespace Form

/-- The sort of the values that have a form. -/
def kind : Form → Json.Kind
  | string => .string
  | boolean => .boolean
  | list _ => .array
  | record _ => .object

/-! ### The format -/

/-- A list of names. -/
def names : Form := .list .string

/-- The keys of a field, a parameter or a global. -/
def variableEntries : List (String × Presence × Form) :=
  [("name", .required, .string), ("type", .required, .string), ("qualifiers", .optional, names)]

/-- The keys of a return type. -/
def returnEntries : List (String × Presence × Form) :=
  [("type", .required, .string), ("qualifiers", .optional, names)]

/-- The keys of a method or function. -/
def functionEntries : List (String × Presence × Form) :=
  [("name", .required, .string), ("params", .optional, .list (.record variableEntries)),
   ("returns", .nullable, .record returnEntries), ("qualifiers", .optional, names),
   ("implementation", .nullable, .string), ("body", .nullable, .string)]

/-- The keys of a class. -/
def classEntries : List (String × Presence × Form) :=
  [("name", .required, .string), ("extends", .optional, names), ("abstract", .optional, .boolean),
   ("coprocessor", .optional, .boolean), ("fields", .optional, .list (.record variableEntries)),
   ("methods", .optional, .list (.record functionEntries))]

/-- The keys of a whole descriptor. -/
def moduleEntries : List (String × Presence × Form) :=
  [("module", .required, .string), ("coprocessor", .optional, .boolean),
   ("strict", .optional, .boolean), ("override", .optional, .boolean),
   ("lib_includes", .optional, names), ("local_includes", .optional, names),
   ("structs", .optional, names), ("typedefs", .optional, names), ("imports", .optional, names),
   ("classes", .optional, .list (.record classEntries)),
   ("globals", .optional, .list (.record variableEntries)),
   ("functions", .optional, .list (.record functionEntries))]

/-- A whole descriptor. -/
def module : Form := .record moduleEntries

/-! ### What is wrong with a value -/

/-- From a value that should have one form, list items and the values of known keys lead to another
value with the form that this should have. -/
inductive Reaches : Form → Json → Form → Json → Prop where
  | here (f : Form) (v : Json) : Reaches f v f v
  | item {item g : Form} {items : List Json} {v w : Json} (hv : v ∈ items)
      (h : Reaches item v g w) : Reaches (.list item) (.array items) g w
  | member {entries : List (String × Presence × Form)} {members : List (String × Json)}
      {k : String} {p : Presence} {f g : Form} {v w : Json} (hentry : (k, p, f) ∈ entries)
      (hmember : (k, v) ∈ members) (hnull : v ≠ .null) (h : Reaches f v g w) :
      Reaches (.record entries) (.object members) g w

/-- Some value is of another sort than its form. -/
def Mistyped (f : Form) (v : Json) : Prop :=
  ∃ g w, Reaches f v g w ∧ w.kind ≠ g.kind

/-- What can be wrong with the keys of an object. -/
inductive Amiss (entries : List (String × Presence × Form)) (members : List (String × Json)) :
    Prop where
  | unknown {k : String} {v : Json} (hmember : (k, v) ∈ members) (h : ∀ e ∈ entries, e.1 ≠ k)
  | missing {k : String} {f : Form} (hentry : (k, .required, f) ∈ entries)
      (h : ∀ m ∈ members, m.1 ≠ k)
  | null {k : String} {p : Presence} {f : Form} (hentry : (k, p, f) ∈ entries)
      (hp : p ≠ .nullable) (hmember : (k, .null) ∈ members)

/-- The keys of some object are not those of its form. -/
def Faulty (f : Form) (v : Json) : Prop :=
  ∃ entries members, Reaches f v (.record entries) (.object members) ∧ Amiss entries members

/-- Nothing is wrong with a value. -/
def Accepts (f : Form) (v : Json) : Prop :=
  ¬f.Mistyped v ∧ ¬f.Faulty v

/-! ### Level by level -/

variable {f item : Form} {v : Json} {items : List Json} {members : List (String × Json)}
  {entries : List (String × Presence × Form)}

/-- A form is proved of all forms by way of their parts. -/
theorem induct {P : Form → Prop} (string : P .string) (boolean : P .boolean)
    (list : ∀ item, P item → P (.list item))
    (record : ∀ entries, (∀ e ∈ entries, P e.2.2) → P (.record entries)) : ∀ f, P f
  | .string => string
  | .boolean => boolean
  | .list item => list item (induct string boolean list record item)
  | .record entries => record entries fun e _ => induct string boolean list record e.2.2
decreasing_by
  · simp
  · obtain ⟨k, p, f⟩ := e
    have hlt := List.sizeOf_lt_of_mem ‹_›
    simp only [Prod.mk.sizeOf_spec] at hlt
    simp only [Form.record.sizeOf_spec]
    omega

theorem mistyped_of_kind_ne (h : v.kind ≠ f.kind) : f.Mistyped v :=
  ⟨f, v, .here f v, h⟩

theorem not_mistyped_leaf (hf : f = .string ∨ f = .boolean) :
    ¬f.Mistyped v ↔ v.kind = f.kind := by
  refine ⟨not_imp_comm.1 mistyped_of_kind_ne, ?_⟩
  rcases hf with rfl | rfl <;>
  · rintro hkind ⟨g, w, ⟨⟩, hne⟩
    exact hne hkind

/-- A text or a truth value leads nowhere. -/
theorem not_faulty_leaf (hf : f = .string ∨ f = .boolean) : ¬f.Faulty v := by
  rcases hf with rfl | rfl <;>
  · rintro ⟨es, ms, ⟨⟩, -⟩

theorem not_mistyped_array :
    ¬(list item).Mistyped (.array items) ↔ ∀ v ∈ items, ¬item.Mistyped v := by
  constructor
  · rintro h v hv ⟨g, w, hreach, hkind⟩
    exact h ⟨g, w, .item hv hreach, hkind⟩
  · rintro h ⟨g, w, hreach, hkind⟩
    cases hreach with
    | here => exact hkind rfl
    | item hv hreach => exact h _ hv ⟨g, w, hreach, hkind⟩

theorem not_mistyped_object :
    ¬(record entries).Mistyped (.object members) ↔
      ∀ k p f v, (k, p, f) ∈ entries → (k, v) ∈ members → v ≠ .null → ¬f.Mistyped v := by
  constructor
  · rintro h k p f v hentry hmember hnull ⟨g, w, hreach, hkind⟩
    exact h ⟨g, w, .member hentry hmember hnull hreach, hkind⟩
  · rintro h ⟨g, w, hreach, hkind⟩
    cases hreach with
    | here => exact hkind rfl
    | member hentry hmember hnull hreach =>
      exact h _ _ _ _ hentry hmember hnull ⟨g, w, hreach, hkind⟩

theorem not_faulty_array :
    ¬(list item).Faulty (.array items) ↔ ∀ v ∈ items, ¬item.Faulty v := by
  constructor
  · rintro h v hv ⟨entries, members, hreach, hamiss⟩
    exact h ⟨entries, members, .item hv hreach, hamiss⟩
  · rintro h ⟨entries, members, hreach, hamiss⟩
    cases hreach with
    | item hv hreach => exact h _ hv ⟨entries, members, hreach, hamiss⟩

theorem not_faulty_object :
    ¬(record entries).Faulty (.object members) ↔ ¬Amiss entries members ∧
      ∀ k p f v, (k, p, f) ∈ entries → (k, v) ∈ members → v ≠ .null → ¬f.Faulty v := by
  constructor
  · intro h
    refine ⟨fun hamiss => h ⟨entries, members, .here _ _, hamiss⟩, ?_⟩
    rintro k p f v hentry hmember hnull ⟨es, ms, hreach, hamiss⟩
    exact h ⟨es, ms, .member hentry hmember hnull hreach, hamiss⟩
  · rintro ⟨h, hinner⟩ ⟨es, ms, hreach, hamiss⟩
    cases hreach with
    | here => exact h hamiss
    | member hentry hmember hnull hreach =>
      exact hinner _ _ _ _ hentry hmember hnull ⟨es, ms, hreach, hamiss⟩

/-! ### Values with which nothing is wrong -/

theorem Accepts.kind_eq (h : f.Accepts v) : v.kind = f.kind :=
  not_imp_comm.1 mistyped_of_kind_ne h.1

theorem accepts_leaf (hf : f = .string ∨ f = .boolean) : f.Accepts v ↔ v.kind = f.kind := by
  rw [Accepts, not_mistyped_leaf hf, and_iff_left (not_faulty_leaf hf)]

theorem accepts_array :
    (list item).Accepts (.array items) ↔ ∀ v ∈ items, item.Accepts v := by
  rw [Accepts, not_mistyped_array, not_faulty_array]
  exact ⟨fun h v hv => ⟨h.1 v hv, h.2 v hv⟩,
    fun h => ⟨fun v hv => (h v hv).1, fun v hv => (h v hv).2⟩⟩

/-- Whether a value may stand for a key. -/
def Allows : Presence → Form → Json → Prop
  | .nullable, f, v => v = .null ∨ f.Accepts v
  | _, f, v => f.Accepts v

/-- Whether an object with these keys may have a member. -/
def Admits (entries : List (String × Presence × Form)) (k : String) (v : Json) : Prop :=
  (∃ e ∈ entries, e.1 = k) ∧ ∀ p f, (k, p, f) ∈ entries → Allows p f v

theorem allows_of_ne_null {p : Presence} (h : v ≠ .null) : Allows p f v ↔ f.Accepts v := by
  cases p with
  | nullable => simp [Allows, h]
  | required | optional => rfl

theorem allows_null {p : Presence} : Allows p f .null ↔ p = .nullable := by
  have hf : ¬f.Accepts .null := fun h => by cases f <;> cases h.kind_eq
  cases p <;> simp [Allows, hf]

/-- An object is right when each of its members is, and the keys that must be there are. -/
theorem accepts_object :
    (record entries).Accepts (.object members) ↔ (∀ m ∈ members, Admits entries m.1 m.2) ∧
      ∀ k f, (k, .required, f) ∈ entries → ∃ m ∈ members, m.1 = k := by
  rw [Accepts, not_mistyped_object, not_faulty_object]
  constructor
  · rintro ⟨htyped, hamiss, hinner⟩
    refine ⟨fun ⟨k, v⟩ hmember => ⟨?_, fun p f hentry => ?_⟩, fun k f hentry => ?_⟩
    · by_contra hunknown
      exact hamiss (.unknown hmember fun e he hk => hunknown ⟨e, he, hk⟩)
    · -- `null` stands for a missing value, which only some entries allow
      by_cases hnull : v = .null
      · subst hnull
        rw [allows_null]
        by_contra hp
        exact hamiss (.null hentry hp hmember)
      · exact (allows_of_ne_null hnull).2
          ⟨htyped k p f v hentry hmember hnull, hinner k p f v hentry hmember hnull⟩
    · by_contra hmissing
      exact hamiss (.missing hentry fun m hm hk => hmissing ⟨m, hm, hk⟩)
  · rintro ⟨hadmits, hrequired⟩
    have haccepts : ∀ k p f v, (k, p, f) ∈ entries → (k, v) ∈ members → v ≠ .null →
        f.Accepts v := fun k p f v hentry hmember hnull =>
      (allows_of_ne_null hnull).1 ((hadmits _ hmember).2 p f hentry)
    refine ⟨fun k p f v he hm hn => (haccepts k p f v he hm hn).1, fun hamiss => ?_,
      fun k p f v he hm hn => (haccepts k p f v he hm hn).2⟩
    cases hamiss with
    | unknown hmember h =>
      obtain ⟨e, he, hk⟩ := (hadmits _ hmember).1
      exact h e he hk
    | missing hentry h =>
      obtain ⟨m, hm, hk⟩ := hrequired _ _ hentry
      exact h m hm hk
    | null hentry hp hmember =>
      exact hp (allows_null.1 ((hadmits _ hmember).2 _ _ hentry))

end Form

end ClassForge.Descriptor

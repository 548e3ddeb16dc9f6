import Mathlib.Data.List.Basic
import ClassForge.Proofs.Descriptor.Path
import ClassForge.Proofs.Descriptor.Verdict

/-!
# The first value of another sort

The tables of shapes say for some of the values in a document which sort they should be of: for the
document, and from there for the items of lists and for what stands behind known keys, unless it is
`null` (`Shape.Leads`). These values have an order: a value comes before what is inside it, items
come by their number and keys as the tables list them (`Shape.Before`). The check reports the first
value of another sort in this order, with its path, or it finds that there is none.
-/

namespace ClassForge.Descriptor

open C (isIdentifier)

namespace Shape

/-- From a value that should have a shape, a path leads to another value, with the shape that this
should have. -/
inductive Leads : Shape → Json → List Step → Shape → Json → Prop where
  | here (shape : Shape) (v : Json) : Leads shape v [] shape v
  | item {item g : Shape} {items : List Json} {i : Nat} {v w : Json} {path : List Step}
      (hv : items[i]? = some v) (h : Leads item v path g w) :
      Leads (.list item) (.array items) (.index i :: path) g w
  | member {shapes : List (String × Shape)} {members : List (String × Json)} {k : String}
      {shape g : Shape} {v w : Json} {path : List Step} (hshape : (k, shape) ∈ shapes)
      (hv : members.lookup k = some v) (hnull : v ≠ .null) (h : Leads shape v path g w) :
      Leads (.record shapes) (.object members) (.key k :: path) g w

/-- Of two places in values of a shape, the one comes before the other. -/
inductive Before : Shape → List Step → List Step → Prop where
  | inside (shape : Shape) (step : Step) (path : List Step) : Before shape [] (step :: path)
  | items {item : Shape} {i j : Nat} {p q : List Step} (h : i < j) :
      Before (.list item) (.index i :: p) (.index j :: q)
  | item {item : Shape} {i : Nat} {p q : List Step} (h : Before item p q) :
      Before (.list item) (.index i :: p) (.index i :: q)
  | members {shapes : List (String × Shape)} {k k' : String} {shape shape' : Shape}
      {p q : List Step} (h : [(k, shape), (k', shape')].Sublist shapes) :
      Before (.record shapes) (.key k :: p) (.key k' :: q)
  | member {shapes : List (String × Shape)} {k : String} {shape : Shape} {p q : List Step}
      (hshape : (k, shape) ∈ shapes) (h : Before shape p q) :
      Before (.record shapes) (.key k :: p) (.key k :: q)

/-- Every value that the shape says something of has the sort that it says. -/
def Conforms (shape : Shape) (v : Json) : Prop :=
  ∀ path g w, Leads shape v path g w → w.kind = g.kind

/-- Tables of shapes whose keys are names, each of which is listed once. -/
inductive WellFormed : Shape → Prop where
  | string : WellFormed .string
  | boolean : WellFormed .boolean
  | list {item : Shape} (h : WellFormed item) : WellFormed (.list item)
  | record {shapes : List (String × Shape)} (hnames : ∀ m ∈ shapes, isIdentifier m.1 = true)
      (hkeys : (shapes.map Prod.fst).Nodup) (h : ∀ m ∈ shapes, WellFormed m.2) :
      WellFormed (.record shapes)

/-- A value of another sort, where everything that comes before is of its sort. -/
structure FirstFault (shape : Shape) (v : Json) (path : List Step) (g : Shape) (w : Json) :
    Prop where
  leads : Leads shape v path g w
  kind_ne : w.kind ≠ g.kind
  before : ∀ p h u, Leads shape v p h u → Before shape p path → u.kind = h.kind

variable {shape inner g : Shape} {shapes : List (String × Shape)} {v w : Json} {items : List Json}
  {members : List (String × Json)} {path : List Step} {e : ShapeError}

/-! ### The tables -/

theorem wellFormed_strings : stringsShape.WellFormed :=
  .list .string

theorem wellFormed_variable : variableShape.WellFormed :=
  .record (by decide) (by decide) (by simp [WellFormed.string, wellFormed_strings])

theorem wellFormed_return : returnShape.WellFormed :=
  .record (by decide) (by decide) (by simp [WellFormed.string, wellFormed_strings])

theorem wellFormed_function : functionShape.WellFormed :=
  .record (by decide) (by decide)
    (by simp [WellFormed.string, wellFormed_strings, wellFormed_return,
      WellFormed.list wellFormed_variable])

theorem wellFormed_class : classShape.WellFormed :=
  .record (by decide) (by decide)
    (by simp [WellFormed.string, WellFormed.boolean, wellFormed_strings,
      WellFormed.list wellFormed_variable, WellFormed.list wellFormed_function])

theorem wellFormed_module : moduleShape.WellFormed :=
  .record (by decide) (by decide)
    (by simp [WellFormed.string, WellFormed.boolean, wellFormed_strings,
      WellFormed.list wellFormed_variable, WellFormed.list wellFormed_function,
      WellFormed.list wellFormed_class])

/-! ### Places -/

theorem Leads.valueAt?_eq (h : Leads shape v path g w) : valueAt? v path = some w := by
  induction h with
  | here => rfl
  | item hv _ ih => rw [valueAt?, hv, Option.bind_some, ih]
  | member _ hv _ _ ih => rw [valueAt?, hv, Option.bind_some, ih]

theorem Leads.isIdentifier_key (h : Leads shape v path g w) (hshape : shape.WellFormed) :
    ∀ k, .key k ∈ path → isIdentifier k = true := by
  induction h with
  | here => nofun
  | item _ _ ih =>
    cases hshape with
    | list hitem => exact fun k hk => ih hitem k (by simpa using hk)
  | member hmem _ _ _ ih =>
    cases hshape with
    | record hnames _ hshapes =>
      intro k hk
      rcases List.mem_cons.1 hk with heq | hk
      · cases heq
        exact hnames _ hmem
      · exact ih (hshapes _ hmem) k hk

/-- One of two elements stands in front of the other. -/
theorem pair_sublist_or {α : Type} {a b : α} {l : List α} (ha : a ∈ l) (hb : b ∈ l) (hne : a ≠ b) :
    [a, b].Sublist l ∨ [b, a].Sublist l := by
  obtain ⟨front, back, rfl⟩ := List.append_of_mem ha
  rcases List.mem_append.1 hb with hb | hb
  · exact .inr ((List.singleton_sublist.2 hb).append (List.singleton_sublist.2 List.mem_cons_self))
  · rcases List.mem_cons.1 hb with rfl | hb
    · exact absurd rfl hne
    · exact .inl (((List.singleton_sublist.2 hb).cons_cons a).trans (List.sublist_append_right ..))

/-- What stands in front of an element that is listed once. -/
theorem mem_of_pair_sublist {α : Type} {a b : α} {front back : List α}
    (hnodup : (front ++ b :: back).Nodup) (h : [a, b].Sublist (front ++ b :: back)) :
    a ∈ front := by
  have hb : b ∉ front ∧ b ∉ back := by
    rw [List.nodup_append, List.nodup_cons] at hnodup
    exact ⟨fun hmem => hnodup.2.2 b hmem b List.mem_cons_self rfl, hnodup.2.1.1⟩
  obtain ⟨l, l', heq, hfront, hback⟩ := List.sublist_append_iff.1 h
  -- the pair is cut where the list is: both behind the cut, one on either side, or both in front
  match l, heq with
  | [], heq =>
    cases heq
    rcases List.sublist_cons_iff.1 hback with hback | ⟨r, heq, hback⟩
    · exact absurd (hback.subset (by simp)) hb.2
    · cases heq
      exact absurd (hback.subset (by simp)) hb.2
  | [c], heq =>
    cases heq
    exact hfront.subset List.mem_cons_self
  | [c, d], heq =>
    cases heq
    exact absurd (hfront.subset (by simp)) hb.1

/-- Of two different places that a shape leads to, one comes before the other. -/
theorem Leads.before_or {p q : List Step} {g' : Shape} {w' : Json} (hp : Leads shape v p g w)
    (hq : Leads shape v q g' w') (hshape : shape.WellFormed) :
    p = q ∨ Before shape p q ∨ Before shape q p := by
  -- the two paths are compared step by step, down to where they part or one of them ends
  induction hp generalizing q with
  | here =>
    cases hq with
    | here => exact .inl rfl
    | item => exact .inr (.inl (.inside ..))
    | member => exact .inr (.inl (.inside ..))
  | @item item g items i v w p hv hp ih =>
    cases hq with
    | here => exact .inr (.inr (.inside ..))
    | @item _ _ _ j v' _ q hv' hq =>
      cases hshape with
      | list hitem =>
        rcases Nat.lt_trichotomy i j with hlt | rfl | hlt
        · exact .inr (.inl (.items hlt))
        · cases hv.symm.trans hv'
          rcases ih hq hitem with rfl | hbefore | hbefore
          · exact .inl rfl
          · exact .inr (.inl (.item hbefore))
          · exact .inr (.inr (.item hbefore))
        · exact .inr (.inr (.items hlt))
  | @member shapes members k shape g v w p hmem hv hnull hp ih =>
    cases hq with
    | here => exact .inr (.inr (.inside ..))
    | @member _ _ k' shape' _ v' _ q hmem' hv' hnull' hq =>
      cases hshape with
      | record hnames hkeys hshapes =>
        -- members come in the order of the shape, where each key is listed once
        by_cases hk : k = k'
        · subst hk
          cases hv.symm.trans hv'
          cases eq_of_key_eq hkeys hmem hmem' rfl
          rcases ih hq (hshapes _ hmem) with rfl | hbefore | hbefore
          · exact .inl rfl
          · exact .inr (.inl (.member hmem hbefore))
          · exact .inr (.inr (.member hmem hbefore))
        · have hne : (k, shape) ≠ (k', shape') := fun heq => hk (congrArg Prod.fst heq)
          rcases pair_sublist_or hmem hmem' hne with hpair | hpair
          · exact .inr (.inl (.members hpair))
          · exact .inr (.inr (.members hpair))

/-! ### Values of the right sort -/

theorem Conforms.kind_eq (h : shape.Conforms v) : v.kind = shape.kind :=
  h [] shape v (.here shape v)

theorem conforms_leaf (hshape : shape = .string ∨ shape = .boolean) :
    shape.Conforms v ↔ v.kind = shape.kind := by
  refine ⟨Conforms.kind_eq, fun hkind => ?_⟩
  rcases hshape with rfl | rfl <;>
  · rintro path g w ⟨⟩
    exact hkind

theorem conforms_array :
    (list inner).Conforms (.array items) ↔ ∀ v ∈ items, inner.Conforms v := by
  constructor
  · intro h v hv path g w hleads
    obtain ⟨i, hi⟩ := List.mem_iff_getElem?.1 hv
    exact h _ g w (.item hi hleads)
  · intro h path g w hleads
    cases hleads with
    | here => rfl
    | item hv hleads => exact h _ (List.mem_of_getElem? hv) _ g w hleads

theorem conforms_object :
    (record shapes).Conforms (.object members) ↔
      ∀ m ∈ shapes, ∀ v, members.lookup m.1 = some v → v ≠ .null → m.2.Conforms v := by
  constructor
  · intro h m hm v hv hnull path g w hleads
    exact h _ g w (.member hm hv hnull hleads)
  · intro h path g w hleads
    cases hleads with
    | here => rfl
    | member hmem hv hnull hleads => exact h _ hmem _ hv hnull _ g w hleads

/-! ### The check -/

theorem check_of_kind_ne (h : v.kind ≠ shape.kind) (path : List Step) :
    shape.check path v = .error ⟨path, shape.kind, v.kind⟩ := by
  cases shape <;> cases v <;> first | rfl | exact absurd rfl h

theorem check_eq_ok_of_kind_ne (h : v.kind ≠ shape.kind) (path : List Step) :
    shape.check path v = .ok () ↔ shape.Conforms v := by
  rw [check_of_kind_ne h]
  exact iff_of_false (fun h => by cases h) fun hconforms => h hconforms.kind_eq

theorem check_eq_ok (hshape : shape.WellFormed) :
    ∀ path v, shape.check path v = .ok () ↔ shape.Conforms v := by
  -- by the shape; a value of the wrong kind fails the check and does not conform
  induction hshape with
  | string =>
    intro path v
    cases v with
    | string => exact iff_of_true rfl ((conforms_leaf (.inl rfl)).2 rfl)
    | null | bool | number | array | object =>
      exact check_eq_ok_of_kind_ne (fun hkind => by cases hkind) path
  | boolean =>
    intro path v
    cases v with
    | bool => exact iff_of_true rfl ((conforms_leaf (.inr rfl)).2 rfl)
    | null | number | string | array | object =>
      exact check_eq_ok_of_kind_ne (fun hkind => by cases hkind) path
  | list _ ih =>
    intro path v
    cases v with
    | array items =>
      rw [conforms_array]
      exact checkItems_eq_ok (fun v _ path => ih path v) path 0
    | null | bool | number | string | object =>
      exact check_eq_ok_of_kind_ne (fun hkind => by cases hkind) path
  | record _ _ _ ih =>
    intro path v
    cases v with
    | object members =>
      rw [conforms_object, check, checkMembers_eq_ok]
      exact forall₂_congr fun m hm => by simp only [ih m hm]
    | null | bool | number | string | array =>
      exact check_eq_ok_of_kind_ne (fun hkind => by cases hkind) path

/-! ### The first value of another sort -/

/-- A value of another sort than its own shape has its fault at the start of the path. -/
theorem firstFault_of_kind_ne (h : v.kind ≠ shape.kind) (hcheck : shape.check path v = .error e) :
    ∃ q g w, FirstFault shape v q g w ∧ e = ⟨path ++ q, g.kind, w.kind⟩ := by
  rw [check_of_kind_ne h] at hcheck
  cases hcheck
  have hfault : FirstFault shape v [] shape v := ⟨.here shape v, h, fun _ _ _ _ hp => by cases hp⟩
  exact ⟨[], shape, v, hfault, by rw [List.append_nil]⟩

theorem FirstFault.item {front back : List Json} (hfront : ∀ u ∈ front, inner.Conforms u)
    (h : FirstFault inner v path g w) :
    FirstFault (list inner) (.array (front ++ v :: back)) (.index front.length :: path) g w where
  leads := .item (by simp) h.leads
  kind_ne := h.kind_ne
  before := by
    intro p f u hleads hbefore
    -- a place in front is the list itself, lies in an item in front, or in front of the fault in
    -- its item
    cases hbefore with
    | inside =>
      cases hleads
      rfl
    | items hlt =>
      cases hleads with
      | item hv hleads =>
        rw [List.getElem?_append_left hlt] at hv
        exact hfront _ (List.mem_of_getElem? hv) _ _ _ hleads
    | item hbefore =>
      cases hleads with
      | item hv hleads =>
        obtain rfl : v = _ := by simpa using hv
        exact h.before _ _ _ hleads hbefore

theorem FirstFault.member {front back : List (String × Shape)} {k : String}
    (hkeys : ((front ++ (k, shape) :: back).map Prod.fst).Nodup)
    (hfront : ∀ m ∈ front, ∀ u, members.lookup m.1 = some u → u ≠ .null → m.2.Conforms u)
    (hv : members.lookup k = some v) (hnull : v ≠ .null) (h : FirstFault shape v path g w) :
    FirstFault (record (front ++ (k, shape) :: back)) (.object members) (.key k :: path) g w where
  leads := .member (by simp) hv hnull h.leads
  kind_ne := h.kind_ne
  before := by
    have hmem : (k, shape) ∈ front ++ (k, shape) :: back := by simp
    intro p f u hleads hbefore
    cases hbefore with
    | inside =>
      cases hleads
      rfl
    | members hpair =>
      cases hleads with
      | member hmem' hv' hnull' hleads =>
        -- the key stands in front of the other in the table, and nowhere else
        have hfirst := hpair.subset List.mem_cons_self
        have hsecond := hpair.subset (List.mem_cons_of_mem _ List.mem_cons_self)
        cases eq_of_key_eq hkeys hfirst hmem' rfl
        cases eq_of_key_eq hkeys hsecond hmem rfl
        have hearlier := mem_of_pair_sublist hkeys.of_map hpair
        exact hfront _ hearlier _ hv' hnull' _ _ _ hleads
    | member hmem' hbefore =>
      cases hleads with
      | member hmem'' hv' _ hleads =>
        cases hv.symm.trans hv'
        cases eq_of_key_eq hkeys hmem' hmem rfl
        cases eq_of_key_eq hkeys hmem'' hmem rfl
        exact h.before _ _ _ hleads hbefore

/-- The items in front of the one with the fault pass. -/
theorem exists_of_checkItems_error {check : List Step → Json → Except ShapeError Unit} {i : Nat}
    (h : checkItems check path i items = .error e) :
    ∃ front v back, items = front ++ v :: back ∧ checkItems check path i front = .ok () ∧
      check (path ++ [.index (i + front.length)]) v = .error e := by
  induction items generalizing i with
  | nil => cases h
  | cons v vs ih =>
    rw [checkItems, bind_eq_error] at h
    rcases h with h | ⟨⟨⟩, hv, h⟩
    · exact ⟨[], v, vs, rfl, rfl, h⟩
    · obtain ⟨front, w, back, rfl, hfront, hw⟩ := ih h
      refine ⟨v :: front, w, back, rfl, check_bind_eq_ok.2 ⟨hv, hfront⟩, ?_⟩
      rw [List.length_cons, Nat.add_comm front.length, ← Nat.add_assoc]
      exact hw

/-- The keys that are listed in front of the one with the fault pass. -/
theorem exists_of_checkMembers_error (h : checkMembers shapes path members = .error e) :
    ∃ front k shape back v, shapes = front ++ (k, shape) :: back ∧
      checkMembers front path members = .ok () ∧ members.lookup k = some v ∧ v ≠ .null ∧
      shape.check (path ++ [.key k]) v = .error e := by
  -- members that are missing or null are passed over, those that conform are behind
  induction shapes with
  | nil => cases h
  | cons m shapes ih =>
    obtain ⟨k, shape⟩ := m
    rcases skip_or_lookup members k with hskip | ⟨v, hlookup, hnull⟩
    · rw [checkMembers_cons_of_skip hskip] at h
      obtain ⟨front, k', shape', back, w, rfl, hfront, hfault⟩ := ih h
      refine ⟨(k, shape) :: front, k', shape', back, w, rfl, ?_, hfault⟩
      rw [checkMembers_cons_of_skip hskip, hfront]
    · rw [checkMembers_cons_of_lookup hlookup hnull, bind_eq_error] at h
      rcases h with h | ⟨⟨⟩, hv, h⟩
      · exact ⟨[], k, shape, shapes, v, rfl, rfl, hlookup, hnull, h⟩
      · obtain ⟨front, k', shape', back, w, rfl, hfront, hfault⟩ := ih h
        refine ⟨(k, shape) :: front, k', shape', back, w, rfl, ?_, hfault⟩
        rw [checkMembers_cons_of_lookup hlookup hnull, hv, hfront]
        rfl

/-- What the check reports is the first value of another sort. -/
theorem firstFault_of_check (hshape : shape.WellFormed) :
    ∀ path v e, shape.check path v = .error e →
      ∃ q g w, FirstFault shape v q g w ∧ e = ⟨path ++ q, g.kind, w.kind⟩ := by
  -- by the shape; the check goes on only while all that it has passed conforms
  induction hshape with
  | string =>
    intro path v e h
    cases v with
    | string => cases h
    | null | bool | number | array | object =>
      exact firstFault_of_kind_ne (fun hkind => by cases hkind) h
  | boolean =>
    intro path v e h
    cases v with
    | bool => cases h
    | null | number | string | array | object =>
      exact firstFault_of_kind_ne (fun hkind => by cases hkind) h
  | list hinner ih =>
    intro path v e h
    cases v with
    | array items =>
      obtain ⟨front, v, back, rfl, hfront, hv⟩ := exists_of_checkItems_error h
      obtain ⟨q, g, w, hfault, rfl⟩ := ih _ _ _ hv
      have hconform := (checkItems_eq_ok (fun v _ path => check_eq_ok hinner path v) path 0).1 hfront
      exact ⟨_, g, w, hfault.item hconform, by simp⟩
    | null | bool | number | string | object =>
      exact firstFault_of_kind_ne (fun hkind => by cases hkind) h
  | record hnames hkeys hshapes ih =>
    intro path v e h
    cases v with
    | object members =>
      obtain ⟨front, k, shape, back, v, rfl, hfront, hlookup, hnull, hv⟩ :=
        exists_of_checkMembers_error h
      obtain ⟨q, g, w, hfault, rfl⟩ := ih (k, shape) (by simp) _ _ _ hv
      have hconform : ∀ m ∈ front, ∀ u, members.lookup m.1 = some u → u ≠ .null → m.2.Conforms u :=
        fun m hm u hu hnull => (check_eq_ok (hshapes m (List.mem_append_left _ hm)) _ u).1
          (checkMembers_eq_ok.1 hfront m hm u hu hnull)
      exact ⟨_, g, w, hfault.member hkeys hconform hlookup hnull, by simp⟩
    | null | bool | number | string | array =>
      exact firstFault_of_kind_ne (fun hkind => by cases hkind) h

/-- The paths from a descriptor are read from their texts. -/
theorem Leads.readPath_pathText (h : moduleShape.Leads v path g w) :
    readPath (pathText path) = path := by
  have hkeys := h.isIdentifier_key wellFormed_module
  cases h with
  | here => rfl
  | @member _ _ k _ _ _ _ _ hmem _ _ _ =>
    refine Descriptor.readPath_pathText hkeys (fun step hstep => ⟨k, ?_⟩) ?_
    · cases hstep
      rfl
    · rintro ⟨⟩
      revert hmem
      simp

end Shape

/-- The path that the check reports can be read again from its text, and it leads to a value that
has the sort reported as found, and should have another one, the sort reported as expected. Of all
the values whose sort is given, those that come before have theirs, and all others come behind.
Where the check passes, all values have the sort that is given for them. -/
theorem checkShape_first_fault (v : Json) :
    (∀ e, checkShape v = .error e →
      readPath (pathText e.path) = e.path ∧
      ∃ shape w, moduleShape.Leads v e.path shape w ∧ valueAt? v e.path = some w ∧
        e.found = w.kind ∧ e.expected = shape.kind ∧ e.found ≠ e.expected ∧
        ∀ p g u, moduleShape.Leads v p g u →
          (moduleShape.Before p e.path → u.kind = g.kind) ∧
          (p = e.path ∨ moduleShape.Before p e.path ∨ moduleShape.Before e.path p)) ∧
    (checkShape v = .ok () → ∀ p g u, moduleShape.Leads v p g u → u.kind = g.kind) := by
  constructor
  · intro e h
    obtain ⟨path, shape, w, hfault, rfl⟩ :=
      Shape.firstFault_of_check Shape.wellFormed_module [] v e h
    refine ⟨hfault.leads.readPath_pathText, shape, w, hfault.leads, hfault.leads.valueAt?_eq, rfl,
      rfl, hfault.kind_ne, fun p g u hleads => ⟨hfault.before p g u hleads, ?_⟩⟩
    exact hleads.before_or hfault.leads Shape.wellFormed_module
  · exact (Shape.check_eq_ok Shape.wellFormed_module [] v).1

namespace Sample

/-- A class with a method whose second parameter has a number for its type, and a list of globals
that is none. -/
def numberType : Json :=
  .object
    [("classes", .array [.object [("methods", .array [.object [("params", .array
        [.object [("name", .string "_self"), ("type", .string "void *")],
         .object [("name", .string "dt"), ("type", .number "3")]])]])]]),
     ("globals", .bool true)]

/-- The way to that type. -/
def typePath : List Step :=
  [.key "classes", .index 0, .key "methods", .index 0, .key "params", .index 1, .key "type"]

end Sample

open Sample

theorem checkShape_first_fault_sample :
    checkShape numberType = .error ⟨typePath, .string, .number⟩ ∧
      readPath (pathText typePath) = typePath ∧
      (∃ w, valueAt? numberType typePath = some w ∧ w.kind = .number) ∧
      moduleShape.Before typePath [.key "globals"] ∧
      checkShape plain = .ok () ∧ moduleShape.Conforms plain := by
  have herror : checkShape numberType = .error ⟨typePath, .string, .number⟩ := rfl
  have hok : checkShape plain = .ok () := rfl
  obtain ⟨hread, shape, w, -, hvalue, hfound, -, -, hplaces⟩ :=
    (checkShape_first_fault numberType).1 _ herror
  have hconform := (checkShape_first_fault plain).2 hok
  -- the list of globals is of another sort as well, so it does not come first
  have hglobals : moduleShape.Leads numberType [.key "globals"] (.list variableShape) (.bool true) :=
    .member (by simp) rfl nofun (.here ..)
  obtain ⟨hbefore, hplace⟩ := hplaces _ _ _ hglobals
  refine ⟨herror, hread, ⟨w, hvalue, hfound.symm⟩, ?_, hok, hconform⟩
  rcases hplace with heq | hplace | hplace
  · exact absurd heq (by decide)
  · cases hbefore hplace
  · exact hplace

end ClassForge.Descriptor

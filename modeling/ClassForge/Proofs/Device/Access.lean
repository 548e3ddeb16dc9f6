import ClassForge.Device.Heap
import ClassForge.Device.Routine

/-!
# Fields and the way to them

A field of an object is reached through objects held by value. The way there gives an expression of
the generated code, and it gives the field's value in a record, where the record fits the plans.
-/

namespace ClassForge.Device

open C ClassForge.Class

/-! ## The way to a field -/

/-- A field of a plan, with its number there. -/
structure Place where
  index : Nat
  field : Field
deriving Repr, DecidableEq

/-- Where a field is in an object: the fields that hold the objects around it by value, outermost
first, and the field itself. -/
structure Access where
  through : List Place := []
  place : Place
deriving Repr, DecidableEq

/-- The same field seen from the object that holds the object by value. -/
def Access.within (p : Place) (a : Access) : Access :=
  { a with through := p :: a.through }

/-! ## In the generated code -/

/-- The expression that points to the object around the field. -/
def Access.holder (object : String) (a : Access) : String :=
  a.through.foldl (fun holder p => Device.address holder p.field) object

/-- The field of the object that the expression `object` points to. -/
def Access.member (object : String) (a : Access) : String :=
  Device.member (a.holder object) a.place.field

/-- The address of that field. -/
def Access.address (object : String) (a : Access) : String :=
  "&" ++ a.member object

/-! ## In a record -/

/-- The numbers of the fields that lead to the field, outermost first. -/
def Access.indices (a : Access) : List Nat :=
  a.through.map (·.index) ++ [a.place.index]

/-- The value that a path leads to. All indices but the last lead through objects held by value. -/
def valueAt? : List Nat → List Value → Option Value
  | [], _ => none
  | [i], values => values[i]?
  | i :: path, values =>
    match values[i]? with
    | some (.embedded _ _ inner) => valueAt? path inner
    | _ => none

section Within

variable {a : Access} {p : Place} {cls : String} {onDevice : Bool} {values inner : List Value}

theorem Access.indices_within (p : Place) (a : Access) :
    (a.within p).indices = p.index :: a.indices := rfl

theorem Access.exists_indices_eq (a : Access) : ∃ i path, a.indices = i :: path :=
  List.exists_cons_of_ne_nil (List.append_ne_nil_of_right_ne_nil _ (List.cons_ne_nil _ _))

theorem valueAt?_within (hv : values[p.index]? = some (.embedded cls onDevice inner)) :
    valueAt? (a.within p).indices values = valueAt? a.indices inner := by
  obtain ⟨i, path, hindices⟩ := a.exists_indices_eq
  rw [Access.indices_within, hindices]
  simp only [valueAt?, hv]

theorem writeValue?_within (new : Value)
    (hv : values[p.index]? = some (.embedded cls onDevice inner)) :
    writeValue? new (a.within p).indices values =
      (writeValue? new a.indices inner).map fun inner =>
        values.set p.index (.embedded cls onDevice inner) := by
  obtain ⟨i, path, hindices⟩ := a.exists_indices_eq
  rw [Access.indices_within, hindices]
  simp only [writeValue?, hv]

/-- An object that is written back as it is changes nothing. -/
theorem set_embedded_self (hv : values[p.index]? = some (.embedded cls onDevice inner)) :
    values.set p.index (.embedded cls onDevice inner) = values := by
  obtain ⟨hlt, heq⟩ := List.getElem?_eq_some_iff.1 hv
  rw [← heq, List.set_getElem_self]

theorem getElem?_set_embedded {old new : List Value}
    (hv : values[p.index]? = some (.embedded cls onDevice old)) :
    (values.set p.index (.embedded cls onDevice new))[p.index]?
      = some (.embedded cls onDevice new) :=
  List.getElem?_set_self (List.getElem?_eq_some_iff.1 hv).1

/-- Steps that are others seen from outside make a run that is theirs seen from outside. -/
theorem foldlM_map_through {α σ τ : Type} {f : τ → α → Option τ} {g : σ → α → Option σ} {w : α → α}
    (outside : σ → τ) (hstep : ∀ s a, f (outside s) (w a) = (g s a).map outside) (as : List α)
    (s : σ) : (as.map w).foldlM f (outside s) = (as.foldlM g s).map outside := by
  induction as generalizing s with
  | nil => rfl
  | cons a as ih =>
    rw [List.map_cons, List.foldlM_cons, List.foldlM_cons, hstep]
    cases g s a with
    | none => rfl
    | some s' => exact ih s'

end Within

section Here

variable {l l' : List Value} {v w : Value} {n : Nat}

theorem getElem?_append_singleton (hl : l.length = n) : (l ++ [v] ++ l')[n]? = some v := by
  rw [List.append_assoc, List.singleton_append, List.getElem?_append_right (Nat.le_of_eq hl), hl,
    Nat.sub_self, List.getElem?_cons_zero]

theorem set_append_singleton (hl : l.length = n) :
    (l ++ [v] ++ l').set n w = l ++ [w] ++ l' := by
  rw [List.append_assoc, List.append_assoc, List.singleton_append, List.singleton_append,
    List.set_append_right _ _ (Nat.le_of_eq hl), hl, Nat.sub_self, List.set_cons_zero]

/-- The field of a plan itself, at its place in a record. -/
theorem Access.valueAt?_here {f : Field} (hl : l.length = n) :
    valueAt? (Access.indices { place := ⟨n, f⟩ }) (l ++ [v] ++ l') = some v :=
  getElem?_append_singleton hl

theorem Access.writeValue?_here {f : Field} (hl : l.length = n) :
    writeValue? w (Access.indices { place := ⟨n, f⟩ }) (l ++ [v] ++ l')
      = some (l ++ [w] ++ l') := by
  have hlt : n < (l ++ [v] ++ l').length := by
    rw [List.length_append, List.length_append, List.length_singleton]
    omega
  exact (if_pos hlt).trans (congrArg some (set_append_singleton hl))

end Here

/-! ## Values that fit -/

mutual

/-- A field that crosses in the given way can have the value: a reference where it crosses as a
reference, and where it crosses as an object by value an object of that class, whose values fit the
plan of the class. -/
inductive Value.Fits (plan? : String → Option Plan) : FieldKind → Value → Prop
  | plain {pointer : Bool} {v : Value} : Value.Fits plan? (.plain pointer) v
  | nested {cls : String} {ref : Option Nat} : Value.Fits plan? (.nested cls) (.object ref)
  | embedded {cls : String} {onDevice : Bool} {plan : Plan} {values : List Value}
    (hplan : plan? cls = some plan) (hfit : Value.AllFit plan? plan.fields values) :
    Value.Fits plan? (.embedded cls) (.embedded cls onDevice values)

/-- Fields can have values one by one, none left over. -/
inductive Value.AllFit (plan? : String → Option Plan) : List Field → List Value → Prop
  | nil : Value.AllFit plan? [] []
  | cons {f : Field} {fs : List Field} {v : Value} {vs : List Value}
    (hhead : Value.Fits plan? f.kind v) (htail : Value.AllFit plan? fs vs) :
    Value.AllFit plan? (f :: fs) (v :: vs)

end

theorem Value.AllFit.length_eq {plan? : String → Option Plan} :
    ∀ {fs : List Field} {vs : List Value}, Value.AllFit plan? fs vs → fs.length = vs.length
  | _, _, .nil => rfl
  | _, _, .cons _ htail => congrArg (· + 1) htail.length_eq

theorem Value.AllFit.exists_cons {plan? : String → Option Plan} {f : Field} {fs : List Field}
    {vs : List Value} (h : Value.AllFit plan? (f :: fs) vs) :
    ∃ v rest, vs = v :: rest ∧ Value.Fits plan? f.kind v ∧ Value.AllFit plan? fs rest := by
  cases h with
  | cons hhead htail => exact ⟨_, _, rfl, hhead, htail⟩

end ClassForge.Device

import ClassForge.Device.Plan

/-!
# Expanding a plan

A plan names the classes of the objects that a struct holds by value. Its expansion puts the
fields of those objects in place, by the plans of their classes, all the way down. It exists unless
a class comes back below itself or the object struct of a class is not known.
-/

namespace ClassForge.Device

open C

/-- A field of a plan with everything below it. -/
inductive Expanded where
  /-- A field that holds no object by value. -/
  | leaf (field : Field)
  /-- A field that holds an object by value, with the fields of that object. -/
  | embedded (field : Field) (inner : List Expanded)
deriving Repr

/-- The classes of a catalog that a path does not pass, counted by their object structs. -/
def Catalog.unpassed (c : Catalog) (path : List String) : Nat :=
  (c.layouts.filter fun l => !path.contains l.1).length

/-- Passing a class with a known object struct leaves fewer classes. -/
theorem Catalog.unpassed_append_lt {c : Catalog} {path : List String} {cls : String}
    {s : StructType} (hs : c.layout? cls = some s) (hp : cls ∉ path) :
    c.unpassed (path ++ [cls]) < c.unpassed path := by
  have hmem : ∀ ls : List (String × StructType), ls.lookup cls = some s →
      ∃ l ∈ ls, l.1 = cls := by
    intro ls
    induction ls with
    | nil => simp
    | cons l ls ih =>
      obtain ⟨k, t⟩ := l
      simp only [List.lookup_cons]
      split
      · exact fun _ => ⟨_, List.mem_cons_self, (beq_iff_eq.1 ‹_›).symm⟩
      · exact fun h => (ih h).elim fun l h => ⟨l, List.mem_cons_of_mem _ h.1, h.2⟩
  -- the class's own entry is the one that the longer path takes out
  obtain ⟨l, hl, rfl⟩ := hmem _ hs
  have hsub : (c.layouts.filter fun m => !(path ++ [l.1]).contains m.1)
      = (c.layouts.filter fun m => !path.contains m.1).filter (·.1 != l.1) := by
    rw [List.filter_filter]
    congr 1
    funext m
    by_cases h : m.1 = l.1 <;> simp [h, bne]
  refine Nat.lt_of_le_of_ne (by rw [unpassed, hsub]; exact List.length_filter_le _ _)
    fun hlen => ?_
  rw [unpassed, hsub] at hlen
  have := List.length_filter_eq_length_iff.1 hlen l
    (List.mem_filter.2 ⟨hl, by simpa using hp⟩)
  simp at this

/-- Expands the fields that satisfy `keep`, at every depth, and drops the others. `path` holds the
classes of the objects around the fields, outermost first. -/
def Catalog.expand (c : Catalog) (keep : Field → Bool) (path : List String) :
    List Field → Except ModelError (List Expanded)
  | [] => .ok []
  | f :: fs =>
    if keep f then
      match f.kind with
      | .embedded cls =>
        -- the object would hold itself, so its fields would have no end
        if _hp : cls ∈ path then .error (.embedsItself (path ++ [cls]))
        else
          match _hs : c.layout? cls with
          | none => .error (.unknownLayout cls)
          | some layout => do
            let inner ← c.expand keep (path ++ [cls]) (c.plan layout).fields
            return .embedded f inner :: (← c.expand keep path fs)
      | _ => do return .leaf f :: (← c.expand keep path fs)
    else c.expand keep path fs
termination_by fs => (c.unpassed path, fs.length)
decreasing_by
  · exact Prod.Lex.left _ _ (unpassed_append_lt _hs _hp)
  all_goals exact Prod.Lex.right _ (Nat.lt_succ_self _)

end ClassForge.Device

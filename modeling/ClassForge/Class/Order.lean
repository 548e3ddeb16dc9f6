import ClassForge.Class.Draft

/-!
# Ordering drafts

Drafts are put in an order in which a class follows the class it extends. Each draft in turn, if
it is not placed yet, is placed behind those of its ancestors that are not; so drafts that come in
such an order keep it. A climb that returns to a draft it has passed reports the cycle.
-/

namespace ClassForge.Class

/-- Checks that each draft extends at most one class and has a name of its own, which no known
class has either. -/
def checkNames (known : List String) (earlier : List String) :
    List Draft → Except ModelError Unit
  | [] => .ok ()
  | d :: ds =>
    if 1 < d.superclasses.length then .error (.severalSuperclasses d.name d.superclasses)
    else if d.name ∈ earlier ∨ d.name ∈ known then .error (.duplicateClass d.name)
    else checkNames known (earlier ++ [d.name]) ds

/-- Checks that each draft extends one of the named classes. -/
def checkSuperclasses (names : List String) : List Draft → Except ModelError Unit
  | [] => .ok ()
  | d :: ds =>
    if d.superclass ∈ names then checkSuperclasses names ds
    else .error (.unknownSuperclass d.name d.superclass)

/-- The drafts of other names. -/
def without (drafts : List Draft) (name : String) : List Draft :=
  drafts.filter (·.name != name)

/-- Taking out the name of a draft leaves fewer drafts. -/
theorem length_without_lt {drafts : List Draft} {name : String} {d : Draft}
    (h : drafts.find? (·.name == name) = some d) :
    (without drafts name).length < drafts.length := by
  refine Nat.lt_of_le_of_ne (List.length_filter_le _ _) fun hlen => ?_
  have hall := List.length_filter_eq_length_iff.1 hlen d (List.mem_of_find?_eq_some h)
  have hname := List.find?_some (p := fun x : Draft => x.name == name) h
  simp_all

/-- Climbs from the class `name` to its superclass, and on, as long as there are drafts that have
not been visited. Returns the drafts passed, `path` first, and those still not visited. -/
def climb (unvisited path : List Draft) (name : String) :
    Except ModelError (List Draft × List Draft) :=
  match _h : unvisited.find? (·.name == name) with
  | some d => climb (without unvisited name) (path ++ [d]) d.superclass
  | none =>
    -- visited on this very climb, so the superclasses lead back to where they came from
    if path.any (·.name == name) then
      .error (.cyclicInheritance
        ((path.dropWhile (·.name != name)).map (·.name) ++ [name]))
    else .ok (path, unvisited)
termination_by unvisited.length
decreasing_by exact length_without_lt _h

/-- Places the drafts that are not visited yet, starting from each of `starts` in turn. -/
def place (unvisited : List Draft) : List Draft → Except ModelError (List Draft)
  | [] => .ok []
  | start :: starts => do
    if unvisited.any (·.name == start.name) then
      let (path, unvisited) ← climb unvisited [] start.name
      let rest ← place unvisited starts
      -- the climb went upwards, and superclasses come first
      return path.reverse ++ rest
    else place unvisited starts

/-- The drafts in an order in which each follows the class it extends. `known` are the names of
classes that exist already. -/
def order (drafts : List Draft) (known : List String) : Except ModelError (List Draft) := do
  checkNames known [] drafts
  checkSuperclasses (drafts.map (·.name) ++ known) drafts
  place drafts drafts

end ClassForge.Class

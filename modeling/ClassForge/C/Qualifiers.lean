import ClassForge.C.Error
import ClassForge.Text.Blank

/-!
# Qualifiers

The words in front of a declared type: at most one storage class, then `const` and `volatile`.
A set with both storage classes cannot be written down; joining two sets is partial instead.
-/

namespace ClassForge.C

/-- Where a declared thing lives and who sees it. -/
inductive Storage where
  | static
  /-- Defined elsewhere. -/
  | external
deriving Repr, DecidableEq

def Storage.keyword : Storage → String
  | .static => "static"
  | .external => "extern"

/-- The one storage class of two declarations of a thing, unless they differ. -/
def Storage.join? : Option Storage → Option Storage → Option (Option Storage)
  | none, s => some s
  | s, none => some s
  | some s, some t => if s = t then some (some s) else none

/-- A storage class in front of a declaration, with the space behind it. -/
def Storage.leading : Option Storage → String
  | none => ""
  | some s => s.keyword ++ " "

/-- A set of qualifiers. -/
structure Qualifiers where
  storage : Option Storage := none
  const : Bool := false
  volatile : Bool := false
deriving Repr, DecidableEq

namespace Qualifiers

def none : Qualifiers := {}

/-- The set with nothing but the part that belongs to the type: `const` and `volatile`. -/
def ofType (q : Qualifiers) : Qualifiers :=
  { q with storage := Option.none }

/-- The set with nothing but the storage class. -/
def ofStorage (q : Qualifiers) : Qualifiers :=
  { storage := q.storage }

/-- Whether the set holds anything that belongs to the type. -/
def hasTypePart (q : Qualifiers) : Bool :=
  q.const || q.volatile

/-- The union of two sets, unless it would hold both storage classes. -/
def join? (p q : Qualifiers) : Option Qualifiers :=
  (Storage.join? p.storage q.storage).map fun s =>
    { storage := s, const := p.const || q.const, volatile := p.volatile || q.volatile }

/-- The qualifiers in front of a type, each followed by a space: the storage class, then `const`,
then `volatile`. -/
def leading (q : Qualifiers) : String :=
  Storage.leading q.storage ++ (if q.const then "const " else "")
    ++ (if q.volatile then "volatile " else "")

/-- The set with the one qualifier that a keyword names, blanks around it aside. -/
def ofKeyword? (word : String) : Option Qualifiers :=
  match String.ofList (Text.trim word.toList) with
  | "const" => some { const := true }
  | "volatile" => some { volatile := true }
  | "static" => some { storage := some .static }
  | "extern" => some { storage := some .external }
  | _ => Option.none

/-- The sets that keywords name; the first unknown keyword is the fault. -/
def ofKeywords : List String → Except TypeError (List Qualifiers)
  | [] => .ok []
  | w :: ws =>
    match ofKeyword? w with
    | Option.none => .error (.unknownQualifier w)
    | some q => (ofKeywords ws).map (q :: ·)

/-- The union of sets, unless it would hold both storage classes. -/
def joinAll? : List Qualifiers → Option Qualifiers
  | [] => some {}
  | q :: qs => (joinAll? qs).bind (q.join? ·)

/-- Reads a list of keywords. An unknown keyword anywhere is reported before a clash. -/
def parse (words : List String) : Except TypeError Qualifiers :=
  match ofKeywords words with
  | .error e => .error e
  | .ok qs =>
    match joinAll? qs with
    | Option.none => .error .twoStorageClasses
    | some q => .ok q

end Qualifiers

end ClassForge.C

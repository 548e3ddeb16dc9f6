import ClassForge.C.Signature
import ClassForge.Class.Error
import ClassForge.Class.Name

/-!
# Classes as written

A `Draft` is what the author of a module writes: a class's name, what it extends, its fields and
its methods. A method says which function implements it, or brings the text of one, or leaves its
slot to a subclass.
-/

namespace ClassForge.Class

open C

/-- How a method is meant to be implemented. -/
inductive MethodKind where
  /-- By a function that is linked from elsewhere, if it is named. -/
  | normal
  /-- By a function whose body is given. -/
  | verbatim
deriving Repr, DecidableEq

/-- What a method definition implements its method with. -/
inductive Supply where
  | nothing
  /-- A function that is linked from elsewhere. -/
  | external (symbol : String)
  /-- The body of a function. -/
  | verbatim (text : String)
deriving Repr, DecidableEq

/-- The kind of method that a supply belongs to. -/
def Supply.kind : Supply → MethodKind
  | verbatim _ => .verbatim
  | _ => .normal

/-- The symbol or body that a supply consists of. -/
def Supply.text? : Supply → Option String
  | nothing => none
  | external symbol => some symbol
  | verbatim text => some text

/-- A method as a class defines it. -/
structure MethodDef where
  signature : Signature
  supply : Supply
deriving Repr, DecidableEq

namespace MethodDef

def name (d : MethodDef) : String :=
  d.signature.name

/-- What a kind of method makes of a text. -/
def supply? (method : String) : MethodKind → Option String → Except ModelError Supply
  -- the slot stays empty, or keeps what the class inherits for it
  | .normal, none => .ok .nothing
  | .normal, some symbol =>
    if isIdentifier symbol then .ok (.external symbol)
    else .error (.symbolNotIdentifier method symbol)
  | .verbatim, none => .error (.verbatimWithoutBody method)
  | .verbatim, some text => .ok (.verbatim text)

/-- Defines a method. Its signature is that of an instance method, and no parameter has a name
that the method's entry points use themselves. -/
def define (signature : Signature) (kind : MethodKind) (text : Option String) :
    Except ModelError MethodDef := do
  if signature.role ≠ .method then throw (.notAnInstanceMethod signature.name)
  match signature.params.find? (Name.reserved.contains ·.name) with
  | some p => throw (.reservedParameter signature.name p.name)
  | none =>
    let supply ← supply? signature.name kind text
    return { signature, supply }

end MethodDef

/-- A class as its author writes it. -/
structure Draft where
  name : String
  /-- What the class extends; nothing stands for the root class. -/
  superclasses : List String := []
  fields : List Variable := []
  methods : List MethodDef := []
  /-- Whether objects of the class have copies on the device. -/
  coprocessor : Bool := false
  /-- Whether slots may stay empty. -/
  isAbstract : Bool := false
deriving Repr, DecidableEq

/-- The first class that a draft extends, or the root class. -/
def Draft.superclass (d : Draft) : String :=
  d.superclasses.headD Name.rootObject

end ClassForge.Class

import ClassForge.C.Struct
import ClassForge.Class.Draft

/-!
# Classes

A class has a method table, a struct for its objects and a struct for its class object, and but
for the root it extends another class. An entry of the table remembers the class that introduced
the method and the signature it had there; who implements it may change from class to class.
-/

namespace ClassForge

open C

namespace Class

/-- Where an implementation comes from. -/
inductive Source where
  /-- Linked from elsewhere. -/
  | external
  /-- Written in full by the author of a class. -/
  | verbatim (text : String)
  /-- Part of the object runtime. -/
  | runtime
  /-- Generated to copy objects to the device or back. -/
  | generated
deriving Repr, DecidableEq

/-- What a method's slot holds. -/
structure Implementation where
  symbol : String
  /-- The class that supplied it. -/
  providedBy : String
  source : Source
deriving Repr, DecidableEq

/-- Whether an implementation was written by the author of a class. -/
def Implementation.isUsers (i : Implementation) : Bool :=
  match i.source with
  | .external | .verbatim _ => true
  | .runtime | .generated => false

/-- An entry of a method table. -/
structure Method where
  /-- The class whose table was the first to have the entry. -/
  introducedBy : String
  /-- The signature of that class's definition. -/
  signature : Signature
  implementation : Option Implementation
deriving Repr, DecidableEq

/-- The parameter that a super-delegator takes first: the class to start from. -/
def classParam : Variable :=
  { name := Name.classParam, type := .void, pointer := true, quals := { const := true } }

/-- The signature of a method's public entry point. -/
def delegatorSignature (introducer : String) (s : Signature) : Signature :=
  { s with name := Name.delegator introducer s.name, role := .delegator }

/-- The signature of a method's entry point for superclasses. -/
def superSignature (s : Signature) : Signature :=
  { s with
    name := Name.superDelegator s.name
    params := classParam :: s.params
    role := .superDelegator }

namespace Method

def name (m : Method) : String :=
  m.signature.name

/-- The public entry point. -/
def delegator (m : Method) : Signature :=
  delegatorSignature m.introducedBy m.signature

/-- The entry point for superclasses. -/
def superDelegator (m : Method) : Signature :=
  superSignature m.signature

def entryNames (m : Method) : List String :=
  [m.delegator.name, m.superDelegator.name]

def typedef (m : Method) : String :=
  Name.typedef m.introducedBy m.name

def slot (m : Method) : String :=
  Name.slot m.name

/-- The field for the slot in the class struct of the class that introduces the method. -/
def slotField (m : Method) : Variable :=
  { name := m.slot, type := .typedef m.typedef }

/-- How the method is implemented. -/
def kind (m : Method) : MethodKind :=
  match m.implementation with
  | some ⟨_, _, .verbatim _⟩ => .verbatim
  | _ => .normal

/-- Whether a class supplied the implementation. -/
def providedBy (m : Method) (cls : String) : Bool :=
  m.implementation.any (·.providedBy == cls)

end Method

end Class

/-- A class apart from what it extends. -/
structure ClassInfo where
  name : String
  /-- The struct of the class's objects. -/
  object : StructType
  /-- The struct of the class object. -/
  metaclass : StructType
  /-- The method table: the inherited entries first. -/
  methods : List Class.Method
  coprocessor : Bool
  isAbstract : Bool
deriving Repr, DecidableEq

/-- A class, with the classes it extends. -/
inductive Class where
  | root (info : ClassInfo)
  | derived (info : ClassInfo) (base : Class)
deriving Repr, DecidableEq

namespace Class

def info : Class → ClassInfo
  | root i => i
  | derived i _ => i

def name (c : Class) : String := c.info.name

def object (c : Class) : StructType := c.info.object

def metaclass (c : Class) : StructType := c.info.metaclass

def methods (c : Class) : List Method := c.info.methods

def coprocessor (c : Class) : Bool := c.info.coprocessor

def isAbstract (c : Class) : Bool := c.info.isAbstract

/-- The class that this one extends. -/
def base? : Class → Option Class
  | root _ => none
  | derived _ base => some base

def isRoot : Class → Bool
  | root _ => true
  | derived .. => false

/-- The name of the class that this one extends; the root's own name for the root. -/
def superclassName : Class → String
  | root _ => Name.rootObject
  | derived _ base => base.name

/-- The class, then each that it extends, nearest first. -/
def chain : Class → List Class
  | root i => [root i]
  | derived i base => derived i base :: base.chain

/-- The table's entry of a name. -/
def method? (c : Class) (name : String) : Option Method :=
  c.methods.find? (·.name == name)

/-- The entries that the class introduces. -/
def introduced (c : Class) : List Method :=
  c.methods.filter (·.introducedBy == c.name)

/-- The entries that the class implements. -/
def implemented (c : Class) : List Method :=
  c.methods.filter (·.providedBy c.name)

/-- The entries that the class implements by a function of its author. -/
def deviceSlots (c : Class) : List Method :=
  c.implemented.filter fun m => m.implementation.any (·.isUsers)

/-- Whether this class or one that it extends has a name. -/
def reaches (c : Class) (ancestor : String) : Bool :=
  c.chain.any (·.name == ancestor)

end Class

end ClassForge

import ClassForge.C.Declaration

/-!
# Signatures

A function's name, parameters and return type, the part it plays for its class, and its storage
class. Two signatures are compatible when they have the same parameter types, in order, and the
same return type.
-/

namespace ClassForge.C

/-- The part a function plays. -/
inductive Role where
  /-- A function of a module that belongs to no class. -/
  | free
  /-- An implementation of a method, which takes its object first. -/
  | method
  /-- The public entry point of a method. -/
  | delegator
  /-- The entry point of a method as a class's superclass has it. -/
  | superDelegator
deriving Repr, DecidableEq

structure Signature where
  name : String
  params : List Variable
  returns : TypeUse
  role : Role
  storage : Option Storage := none
deriving Repr, DecidableEq

namespace Signature

/-- Checks parameters one by one: each is storable, and has a name that none in front of it has. -/
def checkParams (function : String) (earlier : List String) :
    List Variable → Except TypeError Unit
  | [] => .ok ()
  | p :: ps => do
    p.checkStorable "parameter"
    if p.name ∈ earlier then throw (.repeatedParameter function p.name)
    checkParams function (earlier ++ [p.name]) ps

/-- The parameter for the object, if there is one: a pointer in the first place. -/
def self? (s : Signature) : Option Variable :=
  match s.params with
  | [] => none
  | p :: _ => if 0 < p.depth then some p else none

/-- Declares a function without a storage class. -/
def declare (name : String) (params : List Variable) (returns : TypeUse) (role : Role) :
    Except TypeError Signature := do
  checkName .function name
  checkParams name [] params
  if returns.quals.storage.isSome then throw (.storageOnReturn name)
  let s : Signature := { name, params, returns, role }
  if role = .method && s.self?.isNone then throw (.methodWithoutSelf name)
  return s

/-- The signature with a storage class more. -/
def qualify (s : Signature) (quals : Qualifiers) : Except TypeError Signature :=
  if quals.hasTypePart then .error (.functionTypeQualifier s.name)
  else
    match Storage.join? s.storage quals.storage with
    | some storage => .ok { s with storage }
    | none => .error (.functionStorageClash s.name)

/-- The signature made `static`. -/
def makeStatic (s : Signature) : Except TypeError Signature :=
  s.qualify { storage := some .static }

/-- The signature under another name, in another part. -/
def rename (s : Signature) (name : String) (role : Role) : Except TypeError Signature := do
  checkName .function name
  return { s with name, role }

/-- The signature with one parameter more, in front of the others. -/
def withLeading (s : Signature) (param : Variable) : Except TypeError Signature := do
  let t ← declare s.name (param :: s.params) s.returns s.role
  return { t with storage := s.storage }

def returnsVoid (s : Signature) : Bool :=
  s.returns.isVoid

/-- The types of parameters and result. -/
def keys (s : Signature) : List TypeKey × TypeKey :=
  (s.params.map (·.key), s.returns.key)

/-- Whether two functions take and return the same types. -/
def compatible (s t : Signature) : Bool :=
  s.keys = t.keys

/-- The parameters between the parentheses. -/
def paramText (s : Signature) : String :=
  if s.params.isEmpty then "void" else ", ".intercalate (s.params.map (·.text))

/-- The prototype without the semicolon. -/
def text (s : Signature) : String :=
  Storage.leading s.storage ++ s.returns.spelling ++ " " ++ s.name ++ "(" ++ s.paramText ++ ")"

/-- The declaration that gives pointers to such functions the name `name`. -/
def typedefText (s : Signature) (name : String) : String :=
  "typedef " ++ s.returns.spelling ++ " (*" ++ name ++ ")(" ++ s.paramText ++ ");"

/-- The call of `callee` that passes every parameter on by its name. -/
def callText (s : Signature) (callee : String) : String :=
  callee ++ "(" ++ ", ".intercalate (s.params.map (·.name)) ++ ")"

end Signature

end ClassForge.C

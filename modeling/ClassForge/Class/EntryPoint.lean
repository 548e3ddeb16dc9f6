import ClassForge.C.Code
import ClassForge.Class.Basic

/-!
# Entry points of methods

A method that a class introduces gets three pieces of C: a typedef for its slot; a delegator, which
looks up the class of its object and calls through the slot; and a super-delegator, which is told
the class and calls through the slot of that class's superclass.

Each piece is made once for an owner and a method name. Asking again gives the same piece, and is
refused if the types have changed. Typedefs, delegators and super-delegators are remembered apart.
-/

namespace ClassForge.Class

open C

/-- The owner and the name of a method. -/
abbrev MethodId := String × String

/-- The pieces made so far. -/
structure EntryPoints where
  typedefs : List (MethodId × Typedef) := []
  delegators : List (MethodId × FunctionDef) := []
  superDelegators : List (MethodId × FunctionDef) := []
deriving Repr

/-- The pieces for one method. -/
structure Entry where
  typedef : Typedef
  delegator : FunctionDef
  superDelegator : FunctionDef
deriving Repr

namespace EntryPoints

/-- The statements that call a method's slot and return what it returns. -/
def returnCode (method : Signature) (callee : String) : List Code :=
  if method.returnsVoid then [.line (method.callText callee ++ ";"), .line "return;"]
  else [.line ("return " ++ method.callText callee ++ ";")]

/-- A statement that declares a pointer to an owner's class struct. -/
def lookupCode (owner name source : String) : Code :=
  let pointer := "const struct " ++ Name.metaclass owner ++ "*"
  .line (pointer ++ " " ++ name ++ " = (" ++ pointer ++ ") " ++ source ++ ";")

/-- The body of a delegator whose object is the parameter `self`. -/
def delegatorCode (owner : String) (method : Signature) (self : String) : List Code :=
  let callee := "m_class->" ++ Name.slot method.name
  lookupCode owner "m_class" ("myriad_class_of(" ++ self ++ ")")
    :: .line ("assert(" ++ callee ++ ");") :: returnCode method callee

def superCode (owner : String) (method : Signature) : List Code :=
  lookupCode owner "superclass" ("myriad_super(" ++ Name.classParam ++ ")")
    :: returnCode method ("superclass->" ++ Name.slot method.name)

/-- The parameter for the object, of a method that an entry point can be made for: its object comes
first, and no parameter has a name that the entry points use themselves. -/
def checkMethod (owner : String) (method : Signature) : Except ModelError Variable :=
  match method.self? with
  | none => .error (.entryWithoutSelf owner method.name)
  | some self =>
    match method.params.find? (Name.reserved.contains ·.name) with
    | some p => .error (.entryParameterReserved owner method.name p.name)
    | none => .ok self

/-- The piece remembered under `key` if its types are those of `wanted`, else the piece `make`,
remembered from now on. -/
def remember {α : Type} (signature : α → Signature) (memo : List (MethodId × α)) (key : MethodId)
    (wanted : Signature) (make : α) : Except ModelError (α × List (MethodId × α)) :=
  match memo.lookup key with
  | some piece =>
    if (signature piece).compatible wanted then .ok (piece, memo)
    else .error (.entryChanged key.1 wanted.name)
  | none => .ok (make, memo ++ [(key, make)])

/-- The typedef for the slot of `method`, which `owner` introduces. -/
def typedef (e : EntryPoints) (method : Signature) (owner : String) :
    Except ModelError (Typedef × EntryPoints) := do
  let _ ← checkMethod owner method
  let (piece, typedefs) ← remember (·.signature) e.typedefs (owner, method.name) method
    { name := Name.typedef owner method.name, signature := method }
  return (piece, { e with typedefs })

/-- The delegator of `method`, which `owner` introduces. -/
def delegator (e : EntryPoints) (method : Signature) (owner : String) :
    Except ModelError (FunctionDef × EntryPoints) := do
  let self ← checkMethod owner method
  let (piece, delegators) ← remember (·.signature) e.delegators (owner, method.name) method
    { signature := delegatorSignature owner method
      body := .generated (delegatorCode owner method self.name) }
  return (piece, { e with delegators })

/-- The super-delegator of `method`, which `owner` introduces. -/
def superDelegator (e : EntryPoints) (method : Signature) (owner : String) :
    Except ModelError (FunctionDef × EntryPoints) := do
  let _ ← checkMethod owner method
  let (piece, superDelegators) ← remember (·.signature) e.superDelegators (owner, method.name)
    (superSignature method)
    { signature := superSignature method, body := .generated (superCode owner method) }
  return (piece, { e with superDelegators })

def delegatorCount (e : EntryPoints) : Nat :=
  e.delegators.length

/-- The three pieces for a method. What was made before a refusal stays remembered. -/
def entry (e : EntryPoints) (owner : String) (method : Signature) :
    Except ModelError Entry × EntryPoints :=
  match e.typedef method owner with
  -- the tables as they are by then, not those of the start
  | .error err => (.error err, e)
  | .ok (typedef, e) =>
    match e.delegator method owner with
    | .error err => (.error err, e)
    | .ok (delegator, e) =>
      match e.superDelegator method owner with
      | .error err => (.error err, e)
      | .ok (superDelegator, e) => (.ok { typedef, delegator, superDelegator }, e)

/-- The pieces for each of several methods, up to the first refusal. -/
def entries (e : EntryPoints) (owner : String) :
    List Signature → Except ModelError (List Entry) × EntryPoints
  | [] => (.ok [], e)
  | m :: ms =>
    match e.entry owner m with
    | (.error err, e) => (.error err, e)
    | (.ok made, e) =>
      match e.entries owner ms with
      | (.error err, e) => (.error err, e)
      | (.ok rest, e) => (.ok (made :: rest), e)

end EntryPoints

end ClassForge.Class

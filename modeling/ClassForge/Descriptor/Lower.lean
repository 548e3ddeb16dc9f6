import ClassForge.C.Scope
import ClassForge.Descriptor.Basic
import ClassForge.Module.Builder

/-!
# What a descriptor describes

The settings, the type names, the classes, the globals and the functions that a descriptor stands
for, with every text read and every part checked.
-/

namespace ClassForge.Descriptor

open C ClassForge.Class

/-- Does the same with each element, in order, up to the first fault. -/
def mapAll {α β : Type} (f : α → Except ModelError β) : List α → Except ModelError (List β)
  | [] => .ok []
  | a :: as => do
    let b ← f a
    return b :: (← mapAll f as)

/-- The module's settings, without what imports add. -/
def config (d : Descriptor) : Module.Config :=
  let c : Module.Config := { name := d.module }
  d.locals.foldl .includeLocal
    (d.libraries.foldl .includeLibrary (c.withCoprocessor d.coprocessor))

/-- What happens to repeated globals and functions. -/
def policy (d : Descriptor) : Except ModelError Module.Policy :=
  Module.Policy.ofSwitches d.strict d.replace

/-- Adds the structs of classes to a scope. -/
def addClasses (s : Scope) : List String → Except TypeError Scope
  | [] => .ok s
  | c :: cs => do
    let s ← s.addTag c
    let s ← s.addTag (Name.metaclass c)
    addClasses s cs

def addTags (s : Scope) : List String → Except TypeError Scope
  | [] => .ok s
  | t :: ts => do addTags (← s.addTag t) ts

def addTypedefs (s : Scope) : List String → Except TypeError Scope
  | [] => .ok s
  | t :: ts => do addTypedefs (← s.addTypedef t) ts

/-- The type names that the descriptor's types may use: the structs of the root, of the imported
classes and of its own, and the types that it says are declared outside. -/
def scope (d : Descriptor) (imported : List String) : Except TypeError Scope := do
  -- a tag that is given twice is in scope once
  let s ← addClasses {} (Name.rootObject :: imported ++ d.classes.map (·.name))
  let s ← addTags s d.structs
  addTypedefs s d.typedefs

/-- The variable that an entry describes. -/
def VariableEntry.lower (s : Scope) (e : VariableEntry) : Except ModelError Variable :=
  ModelError.ofType do
    let type ← s.parse e.type
    let quals ← Qualifiers.parse e.qualifiers
    Variable.declare e.name type false quals

def ReturnEntry.lower (s : Scope) (e : ReturnEntry) : Except ModelError TypeUse :=
  ModelError.ofType do
    let type ← s.parse e.type
    let quals ← Qualifiers.parse e.qualifiers
    return { type, quals }

def FunctionEntry.signature (s : Scope) (e : FunctionEntry) (role : Role) :
    Except ModelError Signature := do
  let params ← mapAll (·.lower s) e.params
  let returns ← match e.returns with
    | some r => r.lower s
    | none => pure .void
  ModelError.ofType do
    let signature ← Signature.declare e.name params returns role
    let quals ← Qualifiers.parse e.qualifiers
    -- without qualifiers there is nothing to join
    if quals = {} then return signature else signature.qualify quals

/-- The method that an entry describes. -/
def FunctionEntry.lowerMethod (s : Scope) (e : FunctionEntry) : Except ModelError MethodDef := do
  let signature ← e.signature s .method
  match e.implementation, e.body with
  | some symbol, none => MethodDef.define signature .normal (some symbol)
  | none, some text => MethodDef.define signature .verbatim (some text)
  | none, none => MethodDef.define signature .normal none
  | some _, some _ => throw (.symbolAndBody e.name)

/-- The function without a class that an entry describes. -/
def FunctionEntry.lowerFunction (s : Scope) (e : FunctionEntry) :
    Except ModelError Module.Function := do
  if e.implementation.isSome then throw (.symbolOnFunction e.name)
  let signature ← e.signature s .free
  return { signature, body := e.body }

def ClassEntry.lower (s : Scope) (e : ClassEntry) : Except ModelError Draft := do
  let fields ← mapAll (·.lower s) e.fields
  let methods ← mapAll (·.lowerMethod s) e.methods
  return {
    name := e.name
    superclasses := e.superclasses
    fields
    methods
    coprocessor := e.coprocessor
    isAbstract := e.isAbstract }

def drafts (d : Descriptor) (s : Scope) : Except ModelError (List Draft) :=
  mapAll (·.lower s) d.classes

def globalVariables (d : Descriptor) (s : Scope) : Except ModelError (List Variable) :=
  mapAll (·.lower s) d.globals

def freeFunctions (d : Descriptor) (s : Scope) : Except ModelError (List Module.Function) :=
  mapAll (·.lowerFunction s) d.functions

end ClassForge.Descriptor

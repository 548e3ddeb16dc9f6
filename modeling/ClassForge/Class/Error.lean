import ClassForge.C.Error

/-!
# Faults in classes and modules

Why a method, a class or a module was refused. A fault is named by its cause and holds what its
message needs; the wording stands in `ModelError.message` alone.
-/

namespace ClassForge

/-- Why a method, a class or a module was refused. -/
inductive ModelError where
  | type (e : C.TypeError)
  /-- A method's signature is not that of an instance method. -/
  | notAnInstanceMethod (method : String)
  | reservedParameter (method parameter : String)
  | verbatimWithoutBody (method : String)
  | symbolNotIdentifier (method symbol : String)
  /-- A method names an implementing symbol and has a body too. -/
  | symbolAndBody (method : String)
  /-- A function that belongs to no class names an implementing symbol. -/
  | symbolOnFunction (function : String)
  /-- An entry point was asked for a method that does not take its object first. -/
  | entryWithoutSelf (owner method : String)
  | entryParameterReserved (owner method parameter : String)
  /-- An entry point exists already, for other types. -/
  | entryChanged (owner name : String)
  /-- An override takes or returns other types than the method it overrides. -/
  | signatureMismatch (cls method introducedBy expected found : String)
  | severalSuperclasses (cls : String) (bases : List String)
  | cyclicInheritance (cycle : List String)
  /-- A class that is not abstract leaves a slot empty. -/
  | missingImplementation (cls method : String)
  | unknownSuperclass (cls superclass : String)
  | duplicateClass (cls : String)
  | duplicateMethod (cls method : String)
  /-- Two classes introduce methods whose entry points share a name. -/
  | delegatorClash (name first second : String)
  | coprocessorDisabled (cls module : String)
  | duplicateDeclaration (module name : String)
  /-- Repeated declarations were to be refused and to replace each other. -/
  | conflictingPolicy
  /-- Objects hold each other by value; each class of the path holds the next. -/
  | embedsItself (path : List String)
  | unknownLayout (cls : String)
  | badModuleName (name : String)
  | staticFunction (name : String)
deriving Repr, DecidableEq

/-- Takes a fault of the type layer for one of the class layer. -/
instance : Coe C.TypeError ModelError := ⟨.type⟩

/-- Carries a computation with types over to the class layer. -/
def ModelError.ofType {α : Type} : Except C.TypeError α → Except ModelError α
  | .ok a => .ok a
  | .error e => .error (.type e)

def ModelError.message : ModelError → String
  | .type e => e.message
  | .notAnInstanceMethod method =>
    s!"invalid type: method `{method}` must have an instance signature"
  | .reservedParameter method parameter =>
    s!"invalid type: method `{method}`: parameter name `{parameter}` is reserved"
  | .verbatimWithoutBody method => s!"invalid type: verbatim method `{method}` needs a body"
  | .symbolNotIdentifier method symbol =>
    s!"invalid type: method `{method}`: implementation `{symbol}` is not a C identifier"
  | .symbolAndBody method =>
    s!"invalid type: method `{method}` has both an implementation symbol and a body"
  | .symbolOnFunction function =>
    s!"invalid type: module function `{function}` cannot name an implementation symbol"
  | .entryWithoutSelf owner method =>
    s!"invalid type: `{owner}::{method}` must take a self pointer first"
  | .entryParameterReserved owner method parameter =>
    s!"invalid type: `{owner}::{method}`: parameter `{parameter}` collides with a generated name"
  | .entryChanged owner name =>
    s!"invalid type: `{owner}::{name}` was already generated with a different signature"
  | .signatureMismatch cls method introducedBy expected found =>
    s!"`{cls}::{method}` overrides `{introducedBy}::{method}` with signature `{found}`, expected `{expected}`"
  | .severalSuperclasses cls bases =>
    s!"class `{cls}` extends {bases.length} classes (" ++ ", ".intercalate bases
      ++ "); only single inheritance is supported"
  | .cyclicInheritance cycle => "cyclic inheritance: " ++ " -> ".intercalate cycle
  | .missingImplementation cls method =>
    s!"concrete class `{cls}` has no implementation for `{method}`"
  | .unknownSuperclass cls superclass => s!"class `{cls}` extends unknown class `{superclass}`"
  | .duplicateClass cls => s!"class `{cls}` is defined more than once"
  | .duplicateMethod cls method => s!"class `{cls}` defines method `{method}` more than once"
  | .delegatorClash name first second =>
    s!"delegator `{name}` is introduced by both `{first}` and `{second}`"
  | .coprocessorDisabled cls module =>
    s!"class `{cls}` enables coprocessor support but module `{module}` does not"
  | .duplicateDeclaration module name => s!"`{name}` is already declared in module `{module}`"
  | .conflictingPolicy => "strict and override policies are mutually exclusive"
  | .embedsItself path =>
    "invalid type: objects embed each other by value: " ++ " -> ".intercalate path
  | .unknownLayout cls =>
    s!"invalid type: layout of embedded object class `{cls}` is not known"
  | .badModuleName name => s!"invalid type: module name `{name}` is not a C identifier"
  | .staticFunction name => s!"invalid type: module function `{name}` cannot be static"

end ClassForge

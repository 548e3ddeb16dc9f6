import ClassForge.Class.Resolve
import ClassForge.Device.Routine
import ClassForge.Module.Config
import ClassForge.Module.Owners
import ClassForge.Module.Startup

/-!
# Modules

A module is what one header and one source are written from: classes with everything generated for
them, globals and functions. The object runtime is a module too, with the root class and nothing
else.
-/

namespace ClassForge

open C

namespace Module

/-- A function that belongs to no class. Without a body it is only declared. -/
structure Function where
  signature : Signature
  body : Option String := none
deriving Repr, DecidableEq

/-- The function's definition, if it has a body. -/
def Function.definition (f : Function) : Option FunctionDef :=
  f.body.map fun text => { signature := f.signature, body := .verbatim text }

/-- How the source file has the implementation of a method. -/
inductive Provision where
  /-- As a declaration of what is linked from elsewhere. -/
  | external (signature : Signature)
  /-- As a definition. -/
  | definition (f : FunctionDef)
deriving Repr

/-- A class with everything generated for it. -/
structure ClassUnit where
  cls : Class
  entries : List Class.Entry
  provisions : List Provision
  /-- The copy routines, if objects of the class have device copies. -/
  routines : Option Device.Routines
  classConstructor : Option FunctionDef
  init : FunctionDef
deriving Repr

namespace ClassUnit

def name (u : ClassUnit) : String := u.cls.name

/-- The typedefs for the slots that the class introduces. -/
def typedefs (u : ClassUnit) : List Typedef := u.entries.map (·.typedef)

def delegators (u : ClassUnit) : List FunctionDef := u.entries.map (·.delegator)

def superDelegators (u : ClassUnit) : List FunctionDef := u.entries.map (·.superDelegator)

end ClassUnit

/-- Whether a module is the object runtime or a user's. -/
inductive Kind where
  | runtime
  | user
deriving Repr, DecidableEq

end Module

/-- A module, ready to be written. -/
structure Module where
  config : Module.Config
  kind : Module.Kind
  /-- The classes, each behind the class it extends. -/
  classes : List Module.ClassUnit
  /-- The globals, class objects first. -/
  globals : List Variable
  functions : List Module.Function
deriving Repr

namespace Module

open ClassForge.Class

/-- The global that holds a class object. -/
def classVariable (name : String) : Variable :=
  { name, type := .void, pointer := true, quals := { const := true } }

def runtime : Module where
  config := { name := Name.rootObject }
  kind := .runtime
  classes := []
  globals := [classVariable Name.rootObject, classVariable Name.rootMetaclass]
  functions := []

def name (m : Module) : String := m.config.name

/-- The typedefs for slots, in the order in which they are written. -/
def typedefs (m : Module) : List Typedef :=
  match m.kind with
  | .runtime => Root.methods.map fun e => { name := e.typedef, signature := e.signature }
  | .user => m.classes.flatMap (·.typedefs)

/-- Keeps the first of several equal texts. -/
def keepFirst : List String → List String
  | [] => []
  | s :: ss => s :: (keepFirst ss).filter (· != s)

/-- The local headers that the module's header includes: that of the object runtime first, unless
the module is the runtime itself. -/
def localIncludes (m : Module) : List String :=
  match m.kind with
  | .runtime => keepFirst m.config.locals
  | .user => keepFirst (runtimeHeader :: m.config.locals)

/-- The classes whose objects have device copies. -/
def deviceClasses (m : Module) : List ClassUnit :=
  m.classes.filter (·.cls.coprocessor)

def hasDeviceCode (m : Module) : Bool :=
  m.config.coprocessor && !m.deviceClasses.isEmpty

end Module

end ClassForge

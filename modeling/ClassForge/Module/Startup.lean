import ClassForge.C.Code
import ClassForge.Class.Root
import ClassForge.Device.Routine

/-!
# Creating class objects

Two functions set up a class when a program starts. The init routine creates the class's metaclass
and class object, once, and hands over a list of pairs: an entry point and the function that
implements it for the class. The class constructor reads such pairs and fills the slots that the
class introduces.
-/

namespace ClassForge.Module

open C ClassForge.Class

/-- An entry point and the function that implements it. -/
abbrev Pair := String × String

/-! ## The class constructor -/

/-- Fills the slot of a method if the pair at hand is for it. -/
def installCode (m : Method) : List Code :=
  [.blank,
   .line ("if (selector == (voidf) " ++ m.delegator.name ++ ")"),
   .block [.line ("*(voidf*) &_class->" ++ m.slot ++ " = method;")]]

def classConstructorCode (c : Class) : List Code :=
  let metaclass := c.metaclass.name
  let pointer := "struct " ++ metaclass ++ "*"
  [.line (pointer ++ " _class = (" ++ pointer ++ ") super_ctor(" ++ metaclass ++ ", _self, app);"),
   .line "voidf selector = NULL;",
   .line "va_list ap;",
   -- the pairs are read from a copy, so that the caller's list stays where it is
   .line "va_copy(ap, *app);",
   .blank,
   .line "while ((selector = va_arg(ap, voidf)) != NULL)",
   .block (.line "voidf method = va_arg(ap, voidf);" :: c.introduced.flatMap installCode),
   .blank,
   .line "va_end(ap);",
   .line "return _class;"]

/-- The constructor of a class's class object, if the class introduces methods. -/
def classConstructor (c : Class) : Option FunctionDef :=
  if c.introduced.isEmpty then none
  else some
    (Device.localRoutine Root.ctor (Name.classConstructor c.name) (classConstructorCode c))

/-! ## The init routine -/

/-- Publishes the device copy of a class object. -/
def publishCode (object handle : String) : List Code :=
  let pointer := "struct " ++ Name.rootMetaclass ++ "*"
  [.blank,
   .whenDefined Device.deviceSymbol
    [.line "if (init_cuda)",
     .block
      [.line ("void* device_class = myriad_cudafy((void*) " ++ object ++ ", 1);"),
       .line ("((" ++ pointer ++ ") " ++ object ++ ")->device_class = (" ++ pointer
        ++ ") device_class;"),
       .line "CUDA_CHECK_RETURN(",
       .deeper
        [.line ("cudaMemcpyToSymbol((const void*) &" ++ handle
          ++ ", &device_class, sizeof(void*), 0, cudaMemcpyHostToDevice)")],
       .line ");"]]]

/-- How the init routine creates one class object. -/
structure Creation where
  /-- The variable for the class object, and the struct that objects of it have. -/
  object : String
  metaclass : String
  superclass : String
  pairs : List Pair
  /-- The device constant that publishes the device copy. -/
  handle : Option String
deriving Repr, DecidableEq

/-- Creates a class object unless it exists. -/
def Creation.code (n : Creation) : List Code :=
  -- init routines of several classes may get here
  [.line ("if (!" ++ n.object ++ ")"),
   .block
    ([.line (n.object ++ " ="),
      .deeper
        [.line "myriad_new(",
         .deeper
          ([.line (n.metaclass ++ ","), .line (n.superclass ++ ","),
            .line ("sizeof(struct " ++ n.object ++ "),")]
            ++ n.pairs.map (fun p => .line (p.1 ++ ", " ++ p.2 ++ ","))
            -- the list of pairs ends with a null
            ++ [.line "0"]),
         .line ");"]]
      ++ match n.handle with
        | some handle => publishCode n.object handle
        | none => [])]

/-- The pairs for a class's metaclass. -/
def metaclassPairs (c : Class) : List Pair :=
  (if (classConstructor c).isSome then
    [(Name.delegator Name.rootObject Root.ctor.name, Name.classConstructor c.name)] else [])
    ++ (if c.coprocessor then
      [(Name.delegator Name.rootObject Root.cudafy.name, Name.classToDevice c.name)] else [])

/-- The pairs for a class's class object: what the class implements. -/
def classPairs (c : Class) : List Pair :=
  c.implemented.filterMap fun m => m.implementation.map fun i => (m.delegator.name, i.symbol)

/-- How a class's metaclass is created. -/
def metaclassCreation (c : Class) : Creation where
  object := c.metaclass.name
  metaclass := Name.metaclass c.superclassName
  superclass := Name.metaclass c.superclassName
  pairs := metaclassPairs c
  handle := if c.coprocessor then some (Name.deviceHandle c.metaclass.name) else none

/-- How a class's class object is created. -/
def classCreation (c : Class) : Creation where
  object := c.name
  metaclass := c.metaclass.name
  superclass := c.superclassName
  pairs := classPairs c
  handle := if c.coprocessor then some (Name.deviceHandle c.name) else none

/-- The body of a class's init routine: its superclass comes first, unless that is the root. -/
def initCode (c : Class) : List Code :=
  (if c.superclassName = Name.rootObject then []
    else [.line (Name.init c.superclassName ++ "(init_cuda);"), .blank])
    ++ (metaclassCreation c).code ++ [.blank] ++ (classCreation c).code

def initRoutine (c : Class) : FunctionDef where
  signature :=
    { name := Name.init c.name
      params := [{ name := "init_cuda", type := .int }]
      returns := .void
      role := .free }
  body := .generated (initCode c)

end ClassForge.Module

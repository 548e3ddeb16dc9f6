/-!
# Names of generated things

Every identifier that generated code derives from a class or a method is spelled here. The root
class keeps shorter names than the classes that users write.
-/

namespace ClassForge.Class.Name

/-- The root class, and its object struct. -/
def rootObject : String := "MyriadObject"

/-- The root class's class struct. -/
def rootMetaclass : String := "MyriadClass"

/-- The parameter of a super-delegator that holds the class to start from. -/
def classParam : String := "_class"

/-- The names that the bodies of delegators and super-delegators declare for themselves. -/
def reserved : List String := [classParam, "m_class", "superclass"]

/-- The class struct of a class, and the variable that holds the class object of its class. -/
def metaclass (object : String) : String :=
  if object = rootObject then rootMetaclass else object ++ "Class"

/-- The slot of a method in the class struct. -/
def slot (method : String) : String :=
  "my_" ++ method

/-- The typedef for the slot of a method, named after the class that introduces it. -/
def typedef (introducer method : String) : String :=
  if introducer = rootObject then
    if method = "decudafy" then "de_cudafy_t" else method ++ "_t"
  else introducer ++ "_" ++ method ++ "_t"

/-- The public entry point of a method. -/
def delegator (introducer method : String) : String :=
  if introducer = rootObject then "myriad_" ++ method else method

/-- The entry point of a method as a class's superclass has it. -/
def superDelegator (method : String) : String :=
  "super_" ++ method

/-- A class's own implementation of a method. -/
def implementation (object method : String) : String :=
  object ++ "_" ++ method

/-- The device symbol that holds the device address of an implementation. -/
def devicePointer (object method : String) : String :=
  object ++ "_" ++ method ++ "_devp"

/-- The device constant that holds the address of a class object's device copy. -/
def deviceHandle (object : String) : String :=
  object ++ "_dev_t"

/-- The constructor of a class object, which fills the slots that the class introduces. -/
def classConstructor (object : String) : String :=
  metaclass object ++ "_ctor"

/-- The routine that copies a class object to the device. -/
def classToDevice (object : String) : String :=
  metaclass object ++ "_cudafy"

/-- The routine that creates a class's class objects. -/
def init (object : String) : String :=
  "init" ++ object

end ClassForge.Class.Name

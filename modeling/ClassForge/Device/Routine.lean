import ClassForge.C.Code
import ClassForge.Device.Expansion

/-!
# Copy routines

The functions generated for a class whose objects have device copies. One copies an object to the
device, one brings its state back, and one copies the class object. The first two walk the
expansion of the object's plan and are left out where the class implements the method itself.
-/

namespace ClassForge.Device

open C ClassForge.Class

/-- What is generated for a class with device copies. -/
structure Routines where
  plan : Plan
  /-- Copies an object to the device. -/
  toDevice : Option FunctionDef
  /-- Brings an object's state back. -/
  fromDevice : Option FunctionDef
  /-- Copies the class object to the device. -/
  classToDevice : FunctionDef
deriving Repr

/-- The preprocessor symbol for builds that have a device. -/
def deviceSymbol : String := "CUDA"

/-- A field of the object that the expression `object` points to. -/
def member (object : String) (f : Field) : String :=
  "((struct " ++ f.owner ++ "*) " ++ object ++ ")->" ++ f.name

def address (object : String) (f : Field) : String :=
  "&" ++ member object f

/-- A pointer to a class object, as a type. -/
def classPointer : String :=
  "const struct " ++ Name.rootMetaclass ++ "*"

/-! ## Copying an object to the device -/

/-- Puts the device copy of a nested object in its place: what the host's field points to crosses
too, and the copy's field gets the device address by way of a variable of its own. -/
def nestedToDevice (host copy place : String) (f : Field) : List Code :=
  let device := "device_" ++ place ++ f.name
  [.blank,
   .line ("if (" ++ member host f ++ " != NULL)"),
   .block
    [.line ("void* " ++ device ++ " = myriad_cudafy((void*) " ++ member host f ++ ", 0);"),
     .line ("memcpy((void*) " ++ address copy f ++ ", &" ++ device ++ ", sizeof(void*));")]]

/-- Makes the class pointer of an object held by value point to the device's class object. -/
def embeddedToDevice (host copy : String) (f : Field) : List Code :=
  [.blank,
   .block
    [.line (classPointer ++ " embedded_class = ((const struct " ++ Name.rootObject ++ "*) "
      ++ address host f ++ ")->m_class;"),
     .line ("memcpy((void*) &((struct " ++ Name.rootObject ++ "*) " ++ address copy f
      ++ ")->m_class, &embedded_class->device_class, sizeof(void*));")]]

mutual

/-- Mends the copy of a field, which was copied byte by byte. `host` and `copy` point to the object
and to its copy; `place` names the fields that lead there. -/
def Expanded.toDevice (host copy place : String) : Expanded → List Code
  | .leaf f =>
    match f.kind with
    | .nested _ => nestedToDevice host copy place f
    | _ => []
  | .embedded f inner =>
    embeddedToDevice host copy f
      ++ Expanded.allToDevice (address host f) (address copy f) (place ++ f.name ++ "_") inner

def Expanded.allToDevice (host copy place : String) : List Expanded → List Code
  | [] => []
  | e :: es => e.toDevice host copy place ++ Expanded.allToDevice host copy place es

end

/-- The body of the routine that copies an object to the device. -/
def toDeviceCode (object : String) (fields : List Expanded) : List Code :=
  let pointer := "struct " ++ object ++ "*"
  [.ifDefined deviceSymbol
    ([.line "void* device_self = myriad_device_handle_of(_self);",
      .line "if (device_self != NULL && !clobber)",
      .block [.line "return device_self;"],
      .blank,
      .line "const size_t my_size = myriad_size_of(_self);",
      .line "CUDA_CHECK_RETURN(cudaMalloc(&device_self, my_size));",
      -- known before the fields cross, some of which may lead back to this object
      .line "myriad_cache_device_handle(_self, device_self);",
      .blank,
      .line (pointer ++ " self = (" ++ pointer ++ ") _self;"),
      .line (pointer ++ " self_copy = (" ++ pointer ++ ") calloc(1, my_size);"),
      .line "assert(self_copy);",
      .line "memcpy(self_copy, self, my_size);",
      .blank,
      .line (classPointer ++ " host_class = (" ++ classPointer ++ ") myriad_class_of(_self);"),
      -- on the device an object points to the device copy of its class object
      .line ("memcpy((void*) &((struct " ++ Name.rootObject
        ++ "*) self_copy)->m_class, &host_class->device_class, sizeof(void*));")]
      ++ Expanded.allToDevice "self" "self_copy" "" fields
      ++ [.blank,
          .line
            "CUDA_CHECK_RETURN(cudaMemcpy(device_self, (void*) self_copy, my_size, cudaMemcpyHostToDevice));",
          .line "free(self_copy);",
          .line "return device_self;"])
    [.line "return NULL;"]]

/-! ## Bringing an object's state back -/

mutual

/-- Brings a field back: bytes are copied unless they are a pointer, and the state of a nested
object comes back where host and device both have one. -/
def Expanded.fromDevice (host device : String) : Expanded → List Code
  | .leaf f =>
    match f.kind with
    | .plain false =>
      [.line ("memcpy((void*) " ++ address host f ++ ", (const void*) " ++ address device f
        ++ ", sizeof(" ++ member host f ++ "));")]
    | .nested _ =>
      [.line ("if (" ++ member host f ++ " != NULL && " ++ member device f ++ " != NULL)"),
       .block
        [.line ("myriad_decudafy((void*) " ++ member host f ++ ", (void*) " ++ member device f
          ++ ");")]]
    -- a pointer that came back would be one of the device's
    | _ => []
  | .embedded f inner => Expanded.allFromDevice (address host f) (address device f) inner

def Expanded.allFromDevice (host device : String) : List Expanded → List Code
  | [] => []
  | e :: es => e.fromDevice host device ++ Expanded.allFromDevice host device es

end

/-- The body of the routine that brings an object's state back. -/
def fromDeviceCode (object : String) (fields : List Expanded) : List Code :=
  let pointer := "struct " ++ object ++ "*"
  [.whenDefined deviceSymbol
    ([.line "const size_t my_size = myriad_size_of(_self);",
      .line (pointer ++ " self = (" ++ pointer ++ ") _self;"),
      .line (pointer ++ " from_device = (" ++ pointer ++ ") calloc(1, my_size);"),
      .line "assert(from_device);",
      .line
        "CUDA_CHECK_RETURN(cudaMemcpy((void*) from_device, cuda_self, my_size, cudaMemcpyDeviceToHost));"]
      ++ Expanded.allFromDevice "self" "from_device" fields
      ++ [.line "free(from_device);"]),
   .line "return;"]

/-! ## Copying a class object -/

/-- Reads the device address of a slot's function and puts it into the copy of the class object. -/
def slotToDevice (cls : String) (m : Method) : List Code :=
  [.line (m.typedef ++ " " ++ m.slot ++ " = NULL;"),
   .line "CUDA_CHECK_RETURN(",
   .deeper
    [.line ("cudaMemcpyFromSymbol((void**) &" ++ m.slot ++ ", (const void*) &"
      ++ Name.devicePointer cls m.name ++ ", sizeof(void*), 0, cudaMemcpyDeviceToHost)")],
   .line ");",
   -- the slot lies in the class struct of the class that introduces the method
   .line ("((struct " ++ Name.metaclass m.introducedBy ++ "*) &copy_class)->" ++ m.slot ++ " = "
    ++ m.slot ++ ";")]

/-- The body of the routine that copies a class object. -/
def classToDeviceCode (c : Class) : List Code :=
  let metaclass := "struct " ++ c.metaclass.name
  let root := "struct " ++ Name.rootMetaclass ++ "*"
  [.ifDefined deviceSymbol
    [.line (metaclass ++ "* my_class = (" ++ metaclass ++ "*) _self;"),
     -- every slot starts out as it is on the host
     .line (metaclass ++ " copy_class = *my_class;"),
     .line (root ++ " copy_class_class = (" ++ root ++ ") &copy_class;"),
     .blank,
     .line "if (clobber)",
     .block
      (c.deviceSlots.flatMap (slotToDevice c.name)
        -- the copy's superclass is the device copy of the host's
        ++ [.line (classPointer ++ " super_class = (" ++ classPointer ++ ") " ++ c.superclassName
              ++ ";"),
            .line
              "memcpy((void**) &copy_class_class->super, &super_class->device_class, sizeof(void*));"]),
     .blank,
     .line ("return super_cudafy(" ++ Name.metaclass c.superclassName
      ++ ", (void*) &copy_class, 0);")]
    [.line "return NULL;"]]

/-! ## The routines of a class -/

/-- A routine that only its own file sees, with the types of the root's method `s`. -/
def localRoutine (s : Signature) (name : String) (code : List Code) : FunctionDef where
  signature := { s with name, role := .method, storage := some .static }
  body := .generated code

/-- Whether a class has a generated routine in the slot of a method. -/
def isGenerated (c : Class) (method : String) : Bool :=
  ((c.method? method).bind (·.implementation)).any fun i =>
    i.source == .generated && i.providedBy == c.name

/-- The routine that copies an object of a class to the device. -/
def Catalog.toDevice (cat : Catalog) (c : Class) : Except ModelError FunctionDef := do
  let fields ← cat.expand (fun _ => true) [c.name] (cat.plan c.object).fields
  return localRoutine Root.cudafy (Name.implementation c.name Root.cudafy.name)
    (toDeviceCode c.name fields)

/-- The routine that brings the state of an object of a class back. -/
def Catalog.fromDevice (cat : Catalog) (c : Class) : Except ModelError FunctionDef := do
  let fields ← cat.expand (·.syncBack) [c.name] (cat.plan c.object).fields
  return localRoutine Root.decudafy (Name.implementation c.name Root.decudafy.name)
    (fromDeviceCode c.name fields)

def Catalog.routines (cat : Catalog) (c : Class) : Except ModelError Routines := do
  let toDevice ← if isGenerated c Root.cudafy.name then some <$> cat.toDevice c else pure none
  let fromDevice ←
    if isGenerated c Root.decudafy.name then some <$> cat.fromDevice c else pure none
  return {
    plan := cat.plan c.object
    toDevice
    fromDevice
    classToDevice :=
      localRoutine Root.cudafy (Name.classToDevice c.name) (classToDeviceCode c) }

end ClassForge.Device

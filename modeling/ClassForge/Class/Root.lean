import ClassForge.Class.Basic

/-!
# The root class

Every class extends the root, which the object runtime implements. Its object struct holds the
pointer to the class object; its class struct holds the superclass, the device copy, the size of
objects, and the slots of four methods.
-/

namespace ClassForge.Class.Root

open C

/-- The parameter for the object. -/
def self : Variable :=
  { name := "_self", type := .void, pointer := true }

/-- A pointer to anything, as a return type. -/
def pointer : TypeUse :=
  { type := .void, pointer := true }

def ctor : Signature where
  name := "ctor"
  params := [self, { name := "app", type := .primitive .vaList, pointer := true }]
  returns := pointer
  role := .method

def dtor : Signature where
  name := "dtor"
  params := [self]
  returns := { type := .int }
  role := .method

/-- Copies an object to the device. -/
def cudafy : Signature where
  name := "cudafy"
  params := [self, { name := "clobber", type := .int }]
  returns := pointer
  role := .method

/-- Copies an object's state back from the device. -/
def decudafy : Signature where
  name := "decudafy"
  params := [self, { name := "cuda_self", type := .void, pointer := true }]
  returns := .void
  role := .method

/-- The signatures of the root's methods, in the order of their slots. -/
def signatures : List Signature :=
  [ctor, dtor, cudafy, decudafy]

def methods : List Method :=
  signatures.map fun s =>
    { introducedBy := Name.rootObject
      signature := s
      implementation := some
        { symbol := Name.implementation Name.rootObject s.name
          providedBy := Name.rootObject
          source := .runtime } }

/-- The field of an object that points to its class object. -/
def classField : String := "m_class"

/-- A pointer to a class object. -/
def classPointer (name : String) : Variable :=
  { name, type := .struct Name.rootMetaclass, pointer := true, quals := { const := true } }

def object : StructType :=
  .root Name.rootObject [classPointer classField]

/-- The fields of the root's class struct that are no slots. -/
def metaclassHeader : List Variable :=
  [classPointer "super", classPointer "device_class", { name := "size", type := .primitive .size }]

def metaclass : StructType :=
  .extension Name.rootMetaclass object (metaclassHeader ++ methods.map (·.slotField))

end Root

def rootClass : Class :=
  .root
    { name := Name.rootObject
      object := Root.object
      metaclass := Root.metaclass
      methods := Root.methods
      coprocessor := false
      isAbstract := false }

end ClassForge.Class

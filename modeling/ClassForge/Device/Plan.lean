import ClassForge.Class.Root

/-!
# Copy plans

How the fields of an object cross between host and device. A `Catalog` holds the classes whose
objects have device copies; a `Plan` lists the fields of an object struct and of all structs it
extends, outermost ancestor first, each with the way it crosses.
-/

namespace ClassForge.Device

open C ClassForge.Class

/-- How a field crosses between host and device. -/
inductive FieldKind where
  /-- Byte by byte; a pointer keeps pointing where it did. -/
  | plain (pointer : Bool)
  /-- A pointer to an object of a class with device copies: the object crosses too. -/
  | nested (cls : String)
  /-- An object of a class with device copies, by value: its class pointer changes, and its fields
  cross by the plan of its class. -/
  | embedded (cls : String)
deriving Repr, DecidableEq

/-- A field of a plan. -/
structure Field where
  name : String
  /-- The struct that declares the field. -/
  owner : String
  kind : FieldKind
  /-- Whether changes on the device come back to the host. -/
  syncBack : Bool
deriving Repr, DecidableEq

/-- How the fields of an object cross. -/
structure Plan where
  /-- The object struct. -/
  object : String
  fields : List Field
deriving Repr, DecidableEq

/-- The classes whose objects have device copies, and the object structs known of them. -/
structure Catalog where
  enabled : List String := []
  layouts : List (String × StructType) := []
deriving Repr, DecidableEq

namespace Catalog

/-- The catalog with a class more, by name. -/
def enable (c : Catalog) (cls : String) : Catalog :=
  { c with enabled := c.enabled.insert cls }

/-- The catalog with a class more, whose object struct is known from now on. -/
def enableClass (c : Catalog) (cls : Class) : Catalog :=
  { c.enable cls.name with layouts := (cls.name, cls.object) :: c.layouts }

def isEnabled (c : Catalog) (cls : String) : Bool :=
  c.enabled.contains cls

/-- The object struct of a class, if it is known. -/
def layout? (c : Catalog) (cls : String) : Option StructType :=
  c.layouts.lookup cls

/-- How a field crosses. -/
def kind (c : Catalog) (v : Variable) : FieldKind :=
  match v.base.structTag?.filter c.isEnabled, v.depth with
  | some cls, 0 => .embedded cls
  | some cls, 1 => .nested cls
  | _, depth => .plain (0 < depth)

/-- Whether a field of the struct `owner` has no place in a plan: the struct that it extends, whose
fields stand for themselves, and the class pointer. -/
def isHidden (owner : String) (v : Variable) : Bool :=
  v.name == StructType.baseField
    || (owner == Name.rootObject && v.name == Root.classField)

/-- The plan's part for the fields that one struct declares. -/
def ownFields (c : Catalog) (s : StructType) : List Field :=
  (s.fields.filter (!isHidden s.name ·)).map fun v =>
    { name := v.name, owner := s.name, kind := c.kind v, syncBack := !v.quals.const }

def plan (c : Catalog) (s : StructType) : Plan :=
  { object := s.name, fields := s.chain.reverse.flatMap c.ownFields }

end Catalog

end ClassForge.Device

import ClassForge.Json.Basic

/-!
# Descriptors

A descriptor says in JSON what a module consists of. The records here are its contents: types are
still texts, and nothing has been checked but the form. `toJson` writes a descriptor down; lists
that are empty and texts that are missing are left out where they mean the same.
-/

namespace ClassForge

namespace Descriptor

/-- A field, a parameter or a global. -/
structure VariableEntry where
  name : String := ""
  type : String := ""
  qualifiers : List String := []
deriving Repr, DecidableEq

/-- The return type of a method or function. -/
structure ReturnEntry where
  type : String := ""
  qualifiers : List String := []
deriving Repr, DecidableEq

/-- A method, or a function that belongs to no class. -/
structure FunctionEntry where
  name : String := ""
  params : List VariableEntry := []
  /-- Without it nothing is returned. -/
  returns : Option ReturnEntry := none
  qualifiers : List String := []
  /-- The function that implements the method, linked from elsewhere. -/
  implementation : Option String := none
  /-- The body of the function. -/
  body : Option String := none
deriving Repr, DecidableEq

structure ClassEntry where
  name : String := ""
  /-- What the class extends; nothing stands for the root class. -/
  superclasses : List String := []
  isAbstract : Bool := false
  coprocessor : Bool := false
  fields : List VariableEntry := []
  methods : List FunctionEntry := []
deriving Repr, DecidableEq

end Descriptor

/-- What a module consists of. -/
structure Descriptor where
  module : String := ""
  coprocessor : Bool := false
  /-- Whether repeated globals and functions are refused. -/
  strict : Bool := false
  /-- Whether repeated globals and functions replace each other. -/
  replace : Bool := false
  libraries : List String := []
  locals : List String := []
  /-- Struct tags that are declared outside the module. -/
  structs : List String := []
  /-- Function-pointer typedefs that are declared outside the module. -/
  typedefs : List String := []
  /-- Classes of earlier modules that the module builds on. -/
  imports : List String := []
  classes : List Descriptor.ClassEntry := []
  globals : List Descriptor.VariableEntry := []
  functions : List Descriptor.FunctionEntry := []
deriving Repr, DecidableEq

namespace Descriptor

/-- A member that is left out where its list is empty. -/
def unlessEmpty (key : String) (items : List Json) : List (String × Json) :=
  if items.isEmpty then [] else [(key, .array items)]

/-- A member that is left out where its value is missing. -/
def ifPresent (key : String) (v : Option Json) : List (String × Json) :=
  v.toList.map (key, ·)

def VariableEntry.toJson (v : VariableEntry) : Json :=
  .object
    ([("name", .string v.name), ("type", .string v.type)]
      ++ unlessEmpty "qualifiers" (v.qualifiers.map .string))

def ReturnEntry.toJson (r : ReturnEntry) : Json :=
  .object (("type", .string r.type) :: unlessEmpty "qualifiers" (r.qualifiers.map .string))

def FunctionEntry.toJson (f : FunctionEntry) : Json :=
  .object
    ([("name", .string f.name), ("params", .array (f.params.map (·.toJson)))]
      ++ ifPresent "returns" (f.returns.map (·.toJson))
      ++ unlessEmpty "qualifiers" (f.qualifiers.map .string)
      ++ ifPresent "implementation" (f.implementation.map .string)
      ++ ifPresent "body" (f.body.map .string))

def ClassEntry.toJson (c : ClassEntry) : Json :=
  .object
    (("name", .string c.name) :: unlessEmpty "extends" (c.superclasses.map .string)
      ++ [("abstract", .bool c.isAbstract), ("coprocessor", .bool c.coprocessor),
          ("fields", .array (c.fields.map (·.toJson))),
          ("methods", .array (c.methods.map (·.toJson)))])

def toJson (d : Descriptor) : Json :=
  .object
    ([("module", .string d.module), ("coprocessor", .bool d.coprocessor),
      ("strict", .bool d.strict), ("override", .bool d.replace)]
      ++ unlessEmpty "lib_includes" (d.libraries.map .string)
      ++ unlessEmpty "local_includes" (d.locals.map .string)
      ++ unlessEmpty "structs" (d.structs.map .string)
      ++ unlessEmpty "typedefs" (d.typedefs.map .string)
      ++ unlessEmpty "imports" (d.imports.map .string)
      ++ [("classes", .array (d.classes.map (·.toJson)))]
      ++ unlessEmpty "globals" (d.globals.map (·.toJson))
      ++ unlessEmpty "functions" (d.functions.map (·.toJson)))

end Descriptor

end ClassForge

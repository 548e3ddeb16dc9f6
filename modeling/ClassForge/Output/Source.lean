import ClassForge.Output.DeviceHeader

/-!
# Sources

The source of a module: its globals and functions, and class by class the implementations, the
entry points and what creates the class objects.
-/

namespace ClassForge.Output

open C ClassForge.Module

/-- A definition with a blank line behind it. -/
def functionItems (f : FunctionDef) : List Item :=
  [.function f, .blank]

/-- What device code checks the device's answers with, unless the build brings its own. -/
def checkItems : List Item :=
  [.ifDefined Device.deviceSymbol,
   .line "#ifndef CUDA_CHECK_RETURN",
   .line "#define CUDA_CHECK_RETURN(value) assert((value) == cudaSuccess)",
   .endIf,
   .endIf]

/-- What a source includes. -/
def preludeItems (m : Module) : List Item :=
  [.includeLibrary "string.h", .blank, .includeLocal (m.name ++ ".h")]
    ++ (if m.hasDeviceCode then
      [.includeLocal (m.name ++ ".cuh"), .blank] ++ checkItems else [])
    ++ [.blank]

/-- The globals, device symbols and functions of a source. -/
def globalItems (m : Module) : List Item :=
  m.globals.map .variable ++ [.blank]
    ++ (if m.hasDeviceCode then
      .ifDefined Device.deviceSymbol
        :: m.deviceClasses.flatMap (fun u => (handles u.cls).map .device)
        ++ [.endIf, .blank] else [])
    ++ (m.functions.filterMap (·.definition)).flatMap functionItems

/-- How a source has an implementation. -/
def provisionItems : Provision → List Item
  | .external s => [.externFunction s, .blank]
  | .definition f => functionItems f

/-- The copy routines that a class has. -/
def routineItems (r : Device.Routines) : List Item :=
  (r.toDevice.toList ++ r.fromDevice.toList ++ [r.classToDevice]).flatMap functionItems

/-- The implementations that a class supplies. -/
def implementationItems (u : ClassUnit) : List Item :=
  -- no banner over nothing
  if u.provisions.isEmpty && u.routines.isNone then []
  else
    .banner (u.name ++ " implementations") :: u.provisions.flatMap provisionItems
      ++ u.routines.toList.flatMap routineItems

/-- The entry points of the methods that a class introduces. -/
def entryItems (u : ClassUnit) : List Item :=
  if u.entries.isEmpty then []
  else
    .banner (u.name ++ " delegators") :: u.delegators.flatMap functionItems
      ++ u.superDelegators.flatMap functionItems

/-- What creates the class objects of a class. -/
def startupItems (u : ClassUnit) : List Item :=
  .banner (u.name ++ " initialization")
    :: u.classConstructor.toList.flatMap functionItems ++ functionItems u.init

/-- The part of a source that belongs to one class. -/
def classSection (u : ClassUnit) : List Item :=
  implementationItems u ++ entryItems u ++ startupItems u

def source (m : Module) : List Item :=
  preludeItems m ++ globalItems m ++ m.classes.flatMap classSection

end ClassForge.Output

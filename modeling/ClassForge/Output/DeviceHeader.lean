import ClassForge.Module.Basic
import ClassForge.Output.Item

/-!
# Device headers

The device symbols of a module: for each class with device copies the handles of its class objects
and the device pointers of what its author implements. No symbol is declared twice.
-/

namespace ClassForge.Output

open ClassForge.Class

/-- The handles of a class's class objects. -/
def handles (c : Class) : List DeviceVariable :=
  [{ isConstant := true
     type := "struct " ++ Name.rootMetaclass ++ "*"
     name := Name.deviceHandle c.metaclass.name },
   { isConstant := true
     type := "struct " ++ c.metaclass.name ++ "*"
     name := Name.deviceHandle c.name }]

/-- The device pointers of what a class's author implements. -/
def devicePointers (c : Class) : List DeviceVariable :=
  c.deviceSlots.map fun m =>
    { isConstant := false, type := m.typedef, name := Name.devicePointer c.name m.name }

/-- The groups of variables, each without those that a group in front or an earlier place of its
own group has. -/
def declareOnce (earlier : List DeviceVariable) :
    List (List DeviceVariable) → List (List DeviceVariable)
  | [] => []
  | g :: gs =>
    -- in order of first appearance
    let fresh := g.foldl (fun l v => if v ∈ earlier ∨ v ∈ l then l else l ++ [v]) []
    fresh :: declareOnce (earlier ++ fresh) gs

def deviceHeader (m : Module) : List Item :=
  let groups := m.deviceClasses.map fun u => handles u.cls ++ devicePointers u.cls
  [.guard (m.config.guard "CUH"), .includeLocal (m.name ++ ".h"), .blank]
    ++ (declareOnce [] groups).flatMap (fun g => g.map .externDevice ++ [.blank])
    ++ [.endIf]

end ClassForge.Output

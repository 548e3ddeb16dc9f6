import ClassForge.Module.Basic
import ClassForge.Output.Declared

/-!
# Headers

The header of a module: what it includes, the typedefs of slots, its structs by tag, its globals
and functions, what the object runtime declares, and last its structs in full with the entry points
of their methods.
-/

namespace ClassForge.Output

open C ClassForge.Class

/-- Pieces with a blank line behind them, if there are any. -/
def paragraph (items : List Item) : List Item :=
  if items.isEmpty then [] else items ++ [.blank]

/-- What a header includes. -/
def includeItems (m : Module) : List Item :=
  m.config.libraries.map .includeLibrary ++ [.blank]
    ++ paragraph (m.localIncludes.map .includeLocal)

/-- The typedefs of a header. -/
def typedefItems (m : Module) : List Item :=
  paragraph ((if m.kind = .runtime then [.line pairTypedef] else []) ++ m.typedefs.map .typedef)

/-- The structs of a header, each by its tag only. -/
def forwardItems (m : Module) : List Item :=
  match m.kind with
  | .runtime => [.forward Root.metaclass, .forward Root.object, .blank]
  | .user => m.classes.flatMap fun u => [.forward u.cls.metaclass, .forward u.cls.object, .blank]

/-- The globals and functions of a header. -/
def externItems (m : Module) : List Item :=
  paragraph (m.globals.map .externVariable)
    ++ paragraph (m.functions.map fun f => .externFunction f.signature)

/-- The structs of a class, and the functions that are public because of it. -/
def classItems (u : Module.ClassUnit) : List Item :=
  [.struct u.cls.object, .blank, .struct u.cls.metaclass, .blank]
    ++ u.delegators.map (.externFunction ·.signature)
    ++ u.superDelegators.map (.externFunction ·.signature)
    ++ [.externFunction u.init.signature, .blank]

/-- The structs of a header in full. -/
def definitionItems (m : Module) : List Item :=
  match m.kind with
  | .runtime => [.struct Root.object, .blank, .struct Root.metaclass, .blank]
  | .user => m.classes.flatMap classItems

def header (m : Module) : List Item :=
  .guard (m.config.guard "H") :: includeItems m ++ typedefItems m ++ forwardItems m
    ++ externItems m ++ runtimeItems ++ definitionItems m ++ [.endIf]

end ClassForge.Output

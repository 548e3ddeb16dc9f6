import ClassForge.Output.Header
import ClassForge.Output.Source

/-!
# The files of a module

Every module has a header. A user's module also has a source, and a device header if it has device
code.
-/

namespace ClassForge.Output

/-- One of the files of a module. -/
inductive FileKind where
  | header
  | source
  | deviceHeader
deriving Repr, DecidableEq

/-- What the name of a file ends in. -/
def FileKind.extension : FileKind → String
  | header => "h"
  | source => "c"
  | deviceHeader => "cuh"

/-- What a file of a module holds. -/
def FileKind.items : FileKind → Module → List Item
  | header => Output.header
  | source => Output.source
  | deviceHeader => Output.deviceHeader

/-- The files that a module has, in the order in which they are written. -/
def fileKinds (m : Module) : List FileKind :=
  match m.kind with
  | .runtime => [.header]
  | .user => [.header, .source] ++ if m.hasDeviceCode then [.deviceHeader] else []

/-- A file with its text. -/
structure File where
  name : String
  text : String
deriving Repr, DecidableEq

def fileOf (m : Module) (k : FileKind) : File :=
  { name := m.name ++ "." ++ k.extension, text := render (k.items m) }

def filesOf (m : Module) : List File :=
  (fileKinds m).map (fileOf m)

end ClassForge.Output

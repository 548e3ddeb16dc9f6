import ClassForge.C.Code
import ClassForge.C.Struct

/-!
# Contents of a file

What a generated file holds, piece by piece: directives, declarations and definitions as values.
The text of a file is the text of its pieces in order.
-/

namespace ClassForge.Output

open C

/-- A device symbol: a constant or variable that lives on the device. -/
structure DeviceVariable where
  /-- Whether the device only reads it. -/
  isConstant : Bool
  type : String
  name : String
deriving Repr, DecidableEq

/-- The declaration without the semicolon. -/
def DeviceVariable.text (v : DeviceVariable) : String :=
  "__device__ " ++ (if v.isConstant then "__constant__ " else "") ++ v.type ++ " " ++ v.name

/-- A piece of a file. -/
inductive Item where
  | blank
  /-- A line whose text is fixed. -/
  | line (text : String)
  /-- Opens the part of a header that is read once; the file closes it with `endIf`. -/
  | guard (symbol : String)
  | ifDefined (symbol : String)
  | endIf
  | includeLibrary (header : String)
  | includeLocal (header : String)
  /-- A title between two rules. -/
  | banner (title : String)
  | typedef (t : Typedef)
  /-- A struct, by its tag only. -/
  | forward (s : StructType)
  | struct (s : StructType)
  /-- A variable, as one that is defined elsewhere. -/
  | externVariable (v : Variable)
  | variable (v : Variable)
  /-- A function, as one that is defined elsewhere. -/
  | externFunction (s : Signature)
  | function (f : FunctionDef)
  /-- A device symbol, as one that is defined elsewhere. -/
  | externDevice (v : DeviceVariable)
  | device (v : DeviceVariable)
deriving Repr

/-- A rule as wide as a banner with a title. -/
def rule (title : String) : String :=
  String.ofList (List.replicate (title.utf8ByteSize + 6) '/')

def Item.text : Item → String
  | .blank => "\n"
  | .line text => text ++ "\n"
  | .guard symbol => "#ifndef " ++ symbol ++ "\n#define " ++ symbol ++ "\n\n"
  | .ifDefined symbol => "#ifdef " ++ symbol ++ "\n"
  | .endIf => "#endif\n"
  | .includeLibrary header => "#include <" ++ header ++ ">\n"
  | .includeLocal header => "#include \"" ++ header ++ "\"\n"
  | .banner title => rule title ++ "\n// " ++ title ++ " //\n" ++ rule title ++ "\n\n"
  | .typedef t => t.text ++ "\n"
  | .forward s => s.forwardText ++ "\n"
  | .struct s => s.text ++ "\n"
  | .externVariable v => "extern " ++ v.text ++ ";\n"
  | .variable v => v.text ++ ";\n"
  | .externFunction s => "extern " ++ s.text ++ ";\n"
  | .function f => f.text ++ "\n"
  | .externDevice v => "extern " ++ v.text ++ ";\n"
  | .device v => v.text ++ ";\n"

def render (items : List Item) : String :=
  String.join (items.map (·.text))

end ClassForge.Output

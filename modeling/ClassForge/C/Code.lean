import ClassForge.C.Signature
import ClassForge.Text.Indent
import ClassForge.Text.Writer

/-!
# Function bodies

Generated statements are trees, so that a brace is closed and a conditional part ended by
construction; text comes last. A function's body is such code or what a user wrote.
-/

namespace ClassForge.C

open Text

/-- A piece of a generated body. -/
inductive Code where
  /-- A line at the current depth. -/
  | line (text : String)
  | blank
  /-- Lines between braces that stand on lines of their own, one level deeper. -/
  | block (body : List Code)
  /-- Lines one level deeper. -/
  | deeper (body : List Code)
  /-- Lines that count only where a preprocessor symbol is defined. -/
  | whenDefined (symbol : String) (body : List Code)
  /-- Lines that count where a preprocessor symbol is defined, and lines that count elsewhere. -/
  | ifDefined (symbol : String) (body otherwise : List Code)
deriving Repr

mutual

def Code.write : Code → Writer → Writer
  | .line text, w => w.line text
  | .blank, w => w.newline
  | .block body, w => (Code.writeAll body w.openBlock).closeBlock "\x7d"
  | .deeper body, w => (Code.writeAll body w.deeper).shallower
  -- directives stand at the left edge, the lines between them at the depth of the rest
  | .whenDefined symbol body, w =>
    (Code.writeAll body (w.directive ("#ifdef " ++ symbol))).directive "#endif"
  | .ifDefined symbol body otherwise, w =>
    (Code.writeAll otherwise
      ((Code.writeAll body (w.directive ("#ifdef " ++ symbol))).directive "#else")).directive
      "#endif"

def Code.writeAll : List Code → Writer → Writer
  | [], w => w
  | c :: cs, w => Code.writeAll cs (c.write w)

end

/-- The text of a body, one level deep. -/
def Code.bodyText (code : List Code) : String :=
  (Code.writeAll code { depth := 1 }).text

/-- The body of a function. -/
inductive Body where
  | generated (code : List Code)
  /-- What a user wrote, set one level deep. -/
  | verbatim (text : String)
deriving Repr

/-- The lines between the braces, each ended by a line break. -/
def Body.text : Body → String
  | .generated code => Code.bodyText code
  | .verbatim text => indentBody text

/-- A function with its body. -/
structure FunctionDef where
  signature : Signature
  body : Body
deriving Repr

namespace FunctionDef

def name (f : FunctionDef) : String :=
  f.signature.name

def prototype (f : FunctionDef) : String :=
  f.signature.text ++ ";"

/-- The declaration as a function that is defined elsewhere. -/
def externText (f : FunctionDef) : String :=
  "extern " ++ f.signature.text ++ ";"

def text (f : FunctionDef) : String :=
  f.signature.text ++ "\n\x7b\n" ++ f.body.text ++ "\x7d"

end FunctionDef

/-- A name for the pointers to functions of one signature. -/
structure Typedef where
  name : String
  signature : Signature
deriving Repr, DecidableEq

def Typedef.text (t : Typedef) : String :=
  t.signature.typedefText t.name

end ClassForge.C

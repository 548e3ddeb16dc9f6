import ClassForge.Command.Generate

/-!
# Commands

What the program does with its arguments: what it prints, what it reports as a fault, and the code
that it exits with.
-/

namespace ClassForge.Command

def version : String := "0.1.0-alpha.1"

/-- What a run of the program comes to. -/
structure Outcome where
  exit : Nat := 0
  /-- What is printed. -/
  out : String := ""
  /-- What is reported. -/
  err : String := ""
deriving Repr, DecidableEq

/-- Lines of text. -/
def unlines (ls : List String) : String :=
  String.join (ls.map (· ++ "\n"))

def usage : String :=
  unlines
    ["Myriad object system generator",
     "",
     "Usage: myriadc <command> [options]",
     "",
     "Commands:",
     "  gen <descriptor.json>...  Generate C for class descriptors, in order",
     "  runtime                   Generate the MyriadObject.h runtime header",
     "  help                      Show this help message",
     "  version                   Show version information",
     "",
     "Options:",
     "  -o, --out <dir>     Output directory (default: current directory)",
     "  -p, --print         Print generated files instead of writing them",
     "",
     "Environment:",
     "  RUST_LOG=myriad_codegen=debug   Trace module and class resolution",
     "",
     "Examples:",
     "  myriadc runtime -o build/",
     "  myriadc gen Compartment.json HHSomaCompartment.json -o build/",
     "  myriadc gen Mechanism.json --print"]

/-- A run that fails with a report. -/
def failure (report : List String) : Outcome :=
  { exit := 1, err := unlines report }

/-- What is printed for a generated file. -/
def Emitted.report : Emitted → String
  | written path => "wrote " ++ path ++ "\n"
  | printed file => "// ---- " ++ file.name ++ " ----\n" ++ file.text

/-- What generating files comes to. -/
def finish : Except RunError (List Emitted) → Outcome
  | .ok files => { out := String.join (files.map (·.report)) }
  | .error e => failure ["error: " ++ e.message]

variable {m : Type → Type} [Monad m] [FileStore m]

def runGenerate (args : List String) : m Outcome :=
  match Options.parse args with
  | .error e => return failure ["error: " ++ e.message]
  | .ok (_, []) => return failure ["Usage: myriadc gen <descriptor.json>... [-o <dir>] [--print]"]
  | .ok (o, paths) => return finish (← generate o paths)

def runRuntime (args : List String) : m Outcome :=
  match Options.parse args with
  | .error e => return failure ["error: " ++ e.message]
  | .ok (o, []) => return finish (← generateRuntime o)
  | .ok (_, extra :: _) =>
    return failure
      ["error: unexpected argument '" ++ extra ++ "'",
       "Usage: myriadc runtime [-o <dir>] [--print]"]

/-- Runs the program with the arguments behind its name. -/
def run : List String → m Outcome
  | [] => return { out := usage }
  | "gen" :: args => runGenerate args
  | "runtime" :: args => runRuntime args
  | command :: _ =>
    if command ∈ ["help", "--help", "-h"] then return { out := usage }
    else if command ∈ ["version", "--version", "-V"] then
      return { out := "myriadc " ++ version ++ "\n" }
    else return { failure ["Unknown command: " ++ command, ""] with out := usage }

end ClassForge.Command

/-!
# Command-line options

Where generated files go. What is no option is left for the command.
-/

namespace ClassForge.Command

/-- Where generated files go. -/
structure Options where
  /-- The directory for the files, made if it is missing. -/
  directory : String := "."
  /-- Whether the files are printed instead. -/
  print : Bool := false
deriving Repr, DecidableEq

/-- Why arguments were refused. -/
inductive OptionError where
  | missingDirectory (option : String)
  | unknownOption (option : String)
deriving Repr, DecidableEq

def OptionError.message : OptionError → String
  | .missingDirectory option => s!"missing directory after `{option}`"
  | .unknownOption option => s!"unknown option `{option}`"

/-- Whether an argument asks for the directory that follows it. -/
def isDirectoryOption (arg : String) : Bool :=
  arg == "-o" || arg == "--out"

/-- Whether an argument asks for files to be printed. -/
def isPrintOption (arg : String) : Bool :=
  arg == "-p" || arg == "--print"

/-- Reads arguments. Returns the options, which start as `o`, and the arguments that are none. -/
def Options.read (o : Options) : List String → Except OptionError (Options × List String)
  | [] => .ok (o, [])
  | arg :: args =>
    if isDirectoryOption arg then
      match args with
      | [] => .error (.missingDirectory arg)
      | directory :: args => Options.read { o with directory } args
    else if isPrintOption arg then Options.read { o with print := true } args
    else if arg.toList.head? == some '-' then .error (.unknownOption arg)
    else (o.read args).map fun (o, rest) => (o, arg :: rest)

def Options.parse (args : List String) : Except OptionError (Options × List String) :=
  Options.read {} args

end ClassForge.Command

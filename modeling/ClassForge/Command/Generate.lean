import ClassForge.Command.FileStore
import ClassForge.Command.Options
import ClassForge.Descriptor.Read
import ClassForge.Output.File
import ClassForge.Session

/-!
# Generating files

Reads descriptors, builds their modules in one session and writes or prints the files of each
before the next descriptor is read.
-/

namespace ClassForge.Command

/-- Why a command failed. -/
inductive RunError where
  | session (e : SessionError)
  /-- A descriptor is none. -/
  | descriptor (path : String) (e : Descriptor.ReadError)
  /-- A file could not be read or written. -/
  | file (path : String) (e : FileError)
deriving Repr, DecidableEq

def RunError.message : RunError → String
  | .session e => e.message
  | .descriptor path e => e.message path
  | .file path e => path ++ ": " ++ e.message

/-- A generated file. -/
inductive Emitted where
  | written (path : String)
  | printed (file : Output.File)
deriving Repr, DecidableEq

variable {m : Type → Type} [Monad m] [FileStore m]

/-- Reads the descriptor in a file. -/
def load (path : String) : m (Except RunError Descriptor) := do
  match ← FileStore.readText path with
  | .error e => return .error (.file path e)
  | .ok text =>
    match Descriptor.parse text with
    | .error e => return .error (.descriptor path e)
    | .ok d => return .ok d

/-- Writes files into a directory, up to the first that cannot be written. -/
def writeAll (directory : String) : List Output.File → m (Except RunError (List Emitted))
  | [] => return .ok []
  | f :: fs => do
    let path := joinPath directory f.name
    match ← FileStore.writeText path f.text with
    | .error e => return .error (.file path e)
    | .ok _ =>
      match ← writeAll directory fs with
      | .error e => return .error e
      | .ok rest => return .ok (.written path :: rest)

/-- Writes or prints the files of a module. -/
def emit (o : Options) (module : Module) : m (Except RunError (List Emitted)) := do
  let files := Output.filesOf module
  if o.print then return .ok (files.map .printed)
  else
    match ← makeDirectories o.directory with
    | .error e => return .error (.file o.directory e)
    | .ok _ => writeAll o.directory files

/-- Generates the modules of descriptors, in a session. -/
def generateFrom (o : Options) (s : Session) :
    List String → m (Except RunError (List Emitted))
  | [] => return .ok []
  | path :: paths => do
    match ← load path with
    | .error e => return .error e
    | .ok d =>
      match s.build d with
      | .error e => return .error (.session e)
      | .ok (module, s) =>
        -- files are written before the next descriptor is read, and stay if that one is refused
        match ← emit o module with
        | .error e => return .error e
        | .ok files =>
          match ← generateFrom o s paths with
          | .error e => return .error e
          | .ok rest => return .ok (files ++ rest)

/-- Generates the modules of descriptors. Each may build on those in front of it. -/
def generate (o : Options) (paths : List String) : m (Except RunError (List Emitted)) :=
  generateFrom o {} paths

/-- Generates the header of the object runtime. -/
def generateRuntime (o : Options) : m (Except RunError (List Emitted)) :=
  emit o Module.runtime

end ClassForge.Command

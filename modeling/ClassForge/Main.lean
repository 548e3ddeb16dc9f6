import ClassForge.Command.Run

/-!
# The program

Runs a command on the real file system.
-/

namespace ClassForge.Command

/-- A fault by the number that the system gives it. Some calls give the number negated. -/
def FileError.ofCode (code : UInt32) (text : String) : FileError :=
  if code = 20 || code = -20 then .notDirectory
  else if code = 21 || code = -21 then .isDirectory
  else .other text

/-- A fault of the system as one of the commands'. -/
def FileError.ofSystem : IO.Error → FileError
  | .noFileOrDirectory .. => .notFound
  | .alreadyExists .. => .alreadyThere
  | .inappropriateType _ code text => .ofCode code text
  | e => .other (toString e)

/-- Does something with the file system and catches its faults. -/
def attempt {α : Type} (act : IO α) : IO (Except FileError α) := do
  try
    return .ok (← act)
  catch e => return .error (.ofSystem e)

instance : FileStore IO where
  readText path := do
    match ← attempt (IO.FS.readBinFile path) with
    | .error e => return .error e
    | .ok bytes =>
      match String.fromUTF8? bytes with
      | some text => return .ok text
      | none => return .error .notText
  makeDirectory path := attempt (IO.FS.createDir path)
  isDirectory path := do
    match ← attempt (IO.FS.realPath path) with
    | .ok found => found.isDir
    | .error _ => return false
  writeText path text := attempt (IO.FS.writeFile path text)

end ClassForge.Command

def main (args : List String) : IO UInt32 := do
  let outcome ← ClassForge.Command.run args
  IO.print outcome.out
  IO.eprint outcome.err
  return outcome.exit.toUInt32

/-!
# File systems

What commands need of a file system, as a class of monads: reading and writing whole files, and
making one directory at a time. A directory with all those on the way to it is made on top of that,
from the outermost that is missing inwards.
-/

namespace ClassForge.Command

/-- Why a file could not be read or written. -/
inductive FileError where
  | notFound
  | notDirectory
  | isDirectory
  | alreadyThere
  /-- The bytes of a file are no text in UTF-8. -/
  | notText
  /-- Another fault, in the words of the system. -/
  | other (text : String)
deriving Repr, DecidableEq

def FileError.message : FileError → String
  | .notFound => "No such file or directory (os error 2)"
  | .notDirectory => "Not a directory (os error 20)"
  | .isDirectory => "Is a directory (os error 21)"
  | .alreadyThere => "File exists (os error 17)"
  | .notText => "stream did not contain valid UTF-8"
  | .other text => text

/-- What commands need of a file system. -/
class FileStore (m : Type → Type) where
  /-- The text of a file. -/
  readText : (path : String) → m (Except FileError String)
  /-- Makes a directory in one that is there. -/
  makeDirectory : (path : String) → m (Except FileError Unit)
  /-- Whether a path leads to a directory. -/
  isDirectory : (path : String) → m Bool
  /-- Writes a file, in the place of one that is there. -/
  writeText : (path text : String) → m (Except FileError Unit)

/-- The path of a file in a directory. -/
def joinPath (directory name : String) : String :=
  if directory.isEmpty || directory.toList.getLast? == some '/' then directory ++ name
  else directory ++ "/" ++ name

/-! ## Paths -/

/-- A path in parts. -/
structure Path where
  /-- Whether the path starts at the top. -/
  isAbsolute : Bool
  /-- The names between the slashes. -/
  parts : List String
  /-- Whether a slash ends the path. -/
  endsInSlash : Bool
deriving Repr, DecidableEq

namespace Path

/-- The pieces of a text between slashes. -/
def pieces : List Char → List (List Char)
  | [] => [[]]
  | c :: cs =>
    match pieces cs with
    | [] => [[c]]
    | p :: ps => if c = '/' then [] :: p :: ps else (c :: p) :: ps

def ofText (text : String) : Path where
  isAbsolute := text.toList.head? == some '/'
  parts := ((pieces text.toList).filter (!·.isEmpty)).map String.ofList
  endsInSlash := text.toList.getLast? == some '/'

def isEmpty (p : Path) : Bool :=
  !p.isAbsolute && p.parts.isEmpty

/-- The path without parts that stay where they are, apart from one in front. -/
def normal (p : Path) : Path :=
  let parts :=
    match p.isAbsolute, p.parts with
    -- a leading dot says that the path is relative, so it stays
    | false, "." :: ps => "." :: ps.filter (· != ".")
    | _, ps => ps.filter (· != ".")
  { p with parts, endsInSlash := false }

/-- The path in text, without a slash behind it. -/
def text (p : Path) : String :=
  (if p.isAbsolute then "/" else "") ++ "/".intercalate p.parts

/-- The paths of the directories around a path, nearest first. -/
def parents (p : Path) : List Path :=
  ((List.range p.normal.parts.length).reverse.map fun n =>
      { p.normal with parts := p.normal.parts.take n }).filter
    fun q => !q.parts.isEmpty

end Path

/-! ## Making directories -/

variable {m : Type → Type} [Monad m] [FileStore m]

/-- Goes outwards along directories, each around the one in front of it, and makes the first that
can be made or finds the first that is there. Returns those in front of it, outermost first. -/
def makeOutermost (inside : List String) :
    List String → m (Except FileError (List String))
  | [] => return .ok inside
  | d :: ds => do
    match ← FileStore.makeDirectory d with
    | .ok _ => return .ok inside
    | .error .notFound => makeOutermost (d :: inside) ds
    -- another fault is none if it only says that the directory is there
    | .error e => if ← FileStore.isDirectory d then return .ok inside else return .error e

/-- Makes directories, unless they are there. -/
def makeEach : List String → m (Except FileError Unit)
  | [] => return .ok ()
  | d :: ds => do
    match ← FileStore.makeDirectory d with
    | .ok _ => makeEach ds
    | .error e => if ← FileStore.isDirectory d then makeEach ds else return .error e

/-- Makes a directory, and those on the way to it, where they are missing. Nothing is missing on the
way to the empty path. -/
def makeDirectories (path : String) : m (Except FileError Unit) := do
  if path.isEmpty then return .ok ()
  match ← makeOutermost [] (path :: (Path.ofText path).parents.map (·.text)) with
  | .error e => return .error e
  | .ok inside => makeEach inside

end ClassForge.Command

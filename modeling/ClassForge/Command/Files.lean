import ClassForge.Command.FileStore

/-!
# Files in memory

A file system as a value. A file or directory is found by its location, the names on the way to it
from the top; paths are resolved part by part, relative ones from the working directory.
-/

namespace ClassForge.Command


inductive Node where
  | directory
  | file (bytes : ByteArray)

/-- The names on the way from the top to a file or directory. -/
abbrev Location := List String

/-- Files and directories by location. -/
structure Files where
  /-- The first entry for a location counts. -/
  nodes : List (Location × Node) := []
  /-- The working directory. -/
  home : Location := []

namespace Files

/-- What there is at a location. The top is a directory. -/
def node? (fs : Files) (loc : Location) : Option Node :=
  if loc.isEmpty then some .directory else fs.nodes.lookup loc

def isDirectory (fs : Files) (loc : Location) : Bool :=
  match fs.node? loc with
  | some .directory => true
  | _ => false

/-- Puts something at a location. -/
def put (fs : Files) (loc : Location) (n : Node) : Files :=
  { fs with nodes := (loc, n) :: fs.nodes.filter (·.1 != loc) }

/-- Puts a file at a location, with the directories on the way. -/
def place (fs : Files) (loc : Location) (bytes : ByteArray) : Files :=
  let around := (List.range loc.length).map loc.take
  let fs := around.foldl (fun fs l => if fs.isDirectory l then fs else fs.put l .directory) fs
  fs.put loc (.file bytes)

/-- Goes from a location along the parts of a path. -/
def walk (fs : Files) (loc : Location) : List String → Except FileError Location
  | [] => .ok loc
  | part :: parts =>
    if !fs.isDirectory loc then .error .notDirectory
    else if part = "." then fs.walk loc parts
    -- the top is around itself
    else if part = ".." then fs.walk loc.dropLast parts
    else if (fs.node? (loc ++ [part])).isSome then fs.walk (loc ++ [part]) parts
    else .error .notFound

/-- Where a path starts. -/
def start (fs : Files) (p : Path) : Location :=
  if p.isAbsolute then [] else fs.home

/-- The location that a path leads to. -/
def find (fs : Files) (p : Path) : Except FileError Location := do
  if p.isEmpty then throw .notFound
  let loc ← fs.walk (fs.start p) p.parts
  if p.endsInSlash && !fs.isDirectory loc then throw .notDirectory
  return loc

def leadsToDirectory (fs : Files) (path : String) : Bool :=
  match fs.find (.ofText path) with
  | .ok loc => fs.isDirectory loc
  | .error _ => false

def read (fs : Files) (path : String) : Except FileError String := do
  let loc ← fs.find (.ofText path)
  match fs.node? loc with
  | some (.file bytes) =>
    match String.fromUTF8? bytes with
    | some text => return text
    | none => throw .notText
  | _ => throw .isDirectory

/-- The location that the last part of a path names, in a directory that is there. -/
def target (fs : Files) (p : Path) : Except FileError Location := do
  match p.parts.getLast? with
  | none => if p.isAbsolute then throw .alreadyThere else throw .notFound
  | some name =>
    let loc ← fs.walk (fs.start p) p.parts.dropLast
    if !fs.isDirectory loc then throw .notDirectory
    -- such a path leads to a directory that is there, and names nothing in it
    if name = "." || name = ".." then throw .alreadyThere
    return loc ++ [name]

/-- Makes a directory where there is nothing. -/
def makeDirectory (fs : Files) (path : String) : Except FileError Unit × Files :=
  match fs.target (.ofText path) with
  | .error e => (.error e, fs)
  | .ok loc =>
    if (fs.node? loc).isSome then (.error .alreadyThere, fs) else (.ok (), fs.put loc .directory)

/-- Writes a file, in the place of one that is there. -/
def write (fs : Files) (path text : String) : Except FileError Unit × Files :=
  match fs.target (.ofText path) with
  | .error .alreadyThere => (.error .isDirectory, fs)
  | .error e => (.error e, fs)
  | .ok loc =>
    if fs.isDirectory loc then (.error .isDirectory, fs)
    else (.ok (), fs.put loc (.file text.toUTF8))

end Files

/-- A file system in memory, as the state of a computation. -/
instance : FileStore (StateM Files) where
  readText path := do return (← get).read path
  makeDirectory path := modifyGet (·.makeDirectory path)
  isDirectory path := do return (← get).leadsToDirectory path
  writeText path text := modifyGet (·.write path text)

end ClassForge.Command

import ClassForge.Class.Error
import ClassForge.Text.Upper

/-!
# Settings of a module

A module's name, which is also the stem of its files, whether it has device code, and the headers
that it includes. Library headers are kept sorted and local headers in the order in which they were
asked for, each once.
-/

namespace ClassForge.Module

/-- The library headers that every module includes. -/
def defaultLibraries : List String :=
  ["assert.h", "stdarg.h", "stddef.h", "stdint.h", "stdio.h", "stdlib.h"]

/-- The library headers that device code needs. -/
def deviceLibraries : List String :=
  ["cuda_runtime.h", "cuda_runtime_api.h"]

/-- The header of the object runtime. -/
def runtimeHeader : String := "MyriadObject.h"

/-- Puts a text into a sorted list in which none occurs twice. -/
def insertSorted (s : String) : List String → List String
  | [] => [s]
  | t :: ts => if s < t then s :: t :: ts else if s = t then t :: ts else t :: insertSorted s ts

/-- The settings of a module. -/
structure Config where
  name : String
  /-- Whether classes of the module may have device copies. -/
  coprocessor : Bool := false
  /-- Library headers, sorted. -/
  libraries : List String := defaultLibraries
  /-- Local headers, in order. -/
  locals : List String := []
deriving Repr, DecidableEq

namespace Config

def includeLibrary (c : Config) (header : String) : Config :=
  { c with libraries := insertSorted header c.libraries }

/-- The settings with a local header more, unless it is there. -/
def includeLocal (c : Config) (header : String) : Config :=
  if header ∈ c.locals then c else { c with locals := c.locals ++ [header] }

/-- Turns device code on, with the headers it needs, or off. -/
def withCoprocessor (c : Config) (on : Bool) : Config :=
  let c := { c with coprocessor := on }
  if on then deviceLibraries.foldl includeLibrary c else c

/-- The symbol that guards a header of the module against being read twice. -/
def guard (c : Config) (suffix : String) : String :=
  Text.upper c.name ++ "_" ++ suffix

end Config

/-- What happens when a module declares a name twice. -/
inductive Policy where
  /-- The second declaration is refused. -/
  | strict
  /-- The second declaration takes the place of the first. -/
  | override
deriving Repr, DecidableEq

def Policy.text : Policy → String
  | strict => "strict"
  | override => "override"

/-- The policy that two switches ask for. -/
def Policy.ofSwitches : (strict override : Bool) → Except ModelError Policy
  | true, true => .error .conflictingPolicy
  | true, false => .ok .strict
  | false, _ => .ok .override

end ClassForge.Module

import ClassForge.Class.EntryPoint
import ClassForge.Class.Root

/-!
# Resolving a draft

A draft is resolved against the class it extends. Its table is that class's table, in the same
order, with the methods it introduces behind; an override takes over the slot of the method it
overrides. A class with device copies gets generated routines in the two slots that copy objects,
unless it implements them itself.
-/

namespace ClassForge.Class

open C

/-- A method table under construction. -/
structure Table where
  inherited : List Method
  introduced : List Method := []
deriving Repr, DecidableEq

/-- All entries, in the order of the table. -/
def Table.entries (t : Table) : List Method :=
  t.inherited ++ t.introduced

/-- What a class's definition of a method puts into the slot. -/
def implementationOf (cls : String) (d : MethodDef) : Option Implementation :=
  match d.supply with
  | .nothing => none
  | .external symbol => some { symbol, providedBy := cls, source := .external }
  | .verbatim text =>
    some { symbol := Name.implementation cls d.name, providedBy := cls, source := .verbatim text }

/-- The entry with another implementation, if there is one. -/
def Method.bind (m : Method) (i : Option Implementation) : Method :=
  { m with implementation := i.or m.implementation }

/-- The table with the entry of a method's name bound. -/
def Table.override (t : Table) (name : String) (i : Option Implementation) : Table :=
  { t with inherited := t.inherited.map fun m => if m.name = name then m.bind i else m }

/-- Takes a class's definition of a method into the table. -/
def Table.define (t : Table) (cls : String) (d : MethodDef) : Except ModelError Table :=
  match t.inherited.find? (·.name == d.name) with
  | some m =>
    if m.signature.compatible d.signature then
      -- the entry keeps its introducer and its signature; only what fills the slot changes
      .ok (t.override d.name (implementationOf cls d))
    else
      .error
        (.signatureMismatch cls d.name m.introducedBy m.signature.text d.signature.text)
  | none =>
    let m : Method :=
      { introducedBy := cls, signature := d.signature, implementation := implementationOf cls d }
    -- a method that is new by its name can still have an entry point that another method has
    match m.entryNames.find? fun n => t.entries.any fun other => other.entryNames.contains n with
    | some taken => .error (.duplicateMethod cls taken)
    | none => .ok { t with introduced := t.introduced ++ [m] }

/-- Takes a class's definitions into the table, one by one. -/
def Table.defineAll (cls : String) (t : Table) (earlier : List String) :
    List MethodDef → Except ModelError Table
  | [] => .ok t
  | d :: ds => do
    if d.name ∈ earlier then throw (.duplicateMethod cls d.name)
    let t ← t.define cls d
    Table.defineAll cls t (earlier ++ [d.name]) ds

/-- The methods of the root that copy an object to the device and back. -/
def copyMethods : List String := [Root.cudafy.name, Root.decudafy.name]

/-- The entry as a class with device copies has it: a slot that copies objects gets a generated
routine unless the class filled it. -/
def Method.bindCopy (cls : String) (m : Method) : Method :=
  if m.introducedBy = Name.rootObject ∧ m.name ∈ copyMethods ∧ !m.providedBy cls then
    { m with
      implementation := some
        { symbol := Name.implementation cls m.name, providedBy := cls, source := .generated } }
  else m

/-- The table as a class with device copies has it. -/
def Table.bindCopies (t : Table) (cls : String) : Table :=
  { inherited := t.inherited.map (·.bindCopy cls)
    introduced := t.introduced.map (·.bindCopy cls) }

/-- The method table that a draft gives its class. -/
def Draft.table (d : Draft) (base : Class) : Except ModelError Table := do
  let t ← Table.defineAll d.name { inherited := base.methods } [] d.methods
  let t := if d.coprocessor then t.bindCopies d.name else t
  -- generated routines fill their slots as well, so this comes last
  if !d.isAbstract then
    match t.entries.find? (·.implementation.isNone) with
    | some m => throw (.missingImplementation d.name m.name)
    | none => return t
  return t

/-- A draft's class, and its table still in two parts. -/
def Draft.resolveClass (d : Draft) (base : Class) : Except ModelError (Class × Table) := do
  if 1 < d.superclasses.length then throw (.severalSuperclasses d.name d.superclasses)
  if d.superclass ≠ base.name then throw (.unknownSuperclass d.name d.superclass)
  let t ← d.table base
  -- slots of inherited methods lie in the class structs that this one extends
  let metaclass ← ModelError.ofType <|
    StructType.layOut (Name.metaclass d.name) (some base.metaclass) (t.introduced.map (·.slotField))
  let object ← ModelError.ofType <| StructType.layOut d.name (some base.object) d.fields
  let info : ClassInfo :=
    { name := d.name, object, metaclass, methods := t.entries
      coprocessor := d.coprocessor, isAbstract := d.isAbstract }
  return (.derived info base, t)

/-- A class with the entry points of the methods it introduces. -/
structure Resolved where
  cls : Class
  entries : List Entry
deriving Repr

/-- Resolves a draft. The entry points made so far are remembered, also where the draft is
refused. -/
def EntryPoints.resolve (e : EntryPoints) (d : Draft) (base : Class) :
    Except ModelError Resolved × EntryPoints :=
  match d.resolveClass base with
  | .error err => (.error err, e)
  | .ok (cls, table) =>
    match e.entries d.name (table.introduced.map (·.signature)) with
    | (.error err, e) => (.error err, e)
    | (.ok entries, e) => (.ok { cls, entries }, e)

end ClassForge.Class

import ClassForge.Proofs.Module.Calls
import ClassForge.Proofs.Module.FileScope
import ClassForge.Proofs.Module.Files

/-!
# Functions that the init routine passes on

The init routine of a class creates the metaclass and the class object by one call each, and passes
to both of them pairs of an entry point and a function. The functions stand in the section of the
class in front of the init routine: declared, if they are linked from elsewhere, else defined. But
for entry points the section declares and defines no other function there.
-/

namespace ClassForge

open C

namespace Module

open ClassForge.Class Output

/-! ## What the section has -/

/-- The section of a class up to its init routine. -/
def itemsBeforeInit (u : ClassUnit) : List Item :=
  implementationItems u ++ entryItems u
    ++ .banner (u.name ++ " initialization") :: u.classConstructor.toList.flatMap functionItems

/-- The section of a class ends in its init routine. -/
theorem classSection_eq (u : ClassUnit) :
    classSection u = itemsBeforeInit u ++ functionItems u.init := by
  simp [classSection, itemsBeforeInit, startupItems]

/-- `i` declares or defines the function of a pair: as a declaration or a static definition, for
what the author of the class implements an entry with; as the copy routine generated for an entry;
or as the class constructor or the routine that copies the class object. -/
inductive Supplies (u : ClassUnit) : Pair → Item → Prop where
  | external {e : Method} {symbol : String} (he : e ∈ u.cls.methods)
    (himpl : e.implementation = some ⟨symbol, u.name, .external⟩) :
    Supplies u (e.delegator.name, symbol)
      (.externFunction { e.signature with name := symbol, role := .method })
  | verbatim {e : Method} {symbol text : String} (he : e ∈ u.cls.methods)
    (himpl : e.implementation = some ⟨symbol, u.name, .verbatim text⟩) :
    Supplies u (e.delegator.name, symbol)
      (.function
        { signature := { e.signature with name := symbol, role := .method, storage := some .static }
          body := .verbatim text })
  | generated {e : Method} {r : Device.Routines} {f : FunctionDef} (he : e ∈ u.cls.methods)
    (himpl : e.implementation = some ⟨f.name, u.name, .generated⟩) (hr : u.routines = some r)
    (hf : r.toDevice = some f ∨ r.fromDevice = some f)
    (hstatic : f.signature.storage = some .static) :
    Supplies u (e.delegator.name, f.name) (.function f)
  | classConstructor {f : FunctionDef} (hf : u.classConstructor = some f)
    (hname : f.name = u.name ++ "Class_ctor") (hstatic : f.signature.storage = some .static) :
    Supplies u ("myriad_ctor", f.name) (.function f)
  | classToDevice {r : Device.Routines} (hr : u.routines = some r)
    (hname : r.classToDevice.name = u.name ++ "Class_cudafy")
    (hstatic : r.classToDevice.signature.storage = some .static) :
    Supplies u ("myriad_cudafy", r.classToDevice.name) (.function r.classToDevice)

/-- What supplies a function has its name. -/
theorem Supplies.name {u : ClassUnit} {p : Pair} {i : Item} (h : Supplies u p i) :
    (prototype? i).map (·.name) = some p.2 := by
  cases h <;> rfl

section Origin

variable {d : Draft} {above : List Draft} {base : Class} {r : Resolved} {u : ClassUnit}
  {catalog : Device.Catalog}

end Origin

section Build

variable {b : Builder} {m : Module} {u : ClassUnit}

theorem init_eq (s : Stages b m) (hu : u ∈ m.classes) : u.init = initRoutine u.cls := by
  obtain ⟨r, -, hunit⟩ := s.exists_unitOf hu
  obtain ⟨hcls, -, -, -, hinit, -⟩ := unitOf_ok hunit
  rw [hinit, hcls]

end Build

namespace Sample

/-- A method without parameters of its own. -/
def action (name : String) (supply : Supply) : MethodDef where
  signature := { name, params := [Root.self], returns := .void, role := .method }
  supply := supply

/-- A class whose method is implemented elsewhere. -/
def wheel : Draft where
  name := "Wheel"
  methods := [action "turn" (.external "wheel_turn")]
  coprocessor := true

/-- A class that adds a method with a body, and leaves the inherited one as it is. -/
def cart : Draft where
  name := "Cart"
  superclasses := ["Wheel"]
  methods := [action "brake" (.verbatim "")]
  coprocessor := true

/-- A module with both. -/
def vehicles : Builder where
  config := ({ name := "vehicles" } : Config).withCoprocessor true
  drafts := [wheel, cart]

/-- What is generated for a class without fields does not fail for its copy routines. -/
theorem exists_unitOf_of_no_fields {catalog : Device.Catalog} {r : Resolved}
    (hfields : (catalog.plan r.cls.object).fields = []) {ps : List Provision}
    (hprovisions : provisionsOf r.cls.implemented = .ok ps) : ∃ u, unitOf catalog r = .ok u := by
  have hgrounded : catalog.Grounded [r.cls.name] (catalog.plan r.cls.object).fields := by
    have hholds : ∀ a, ¬ catalog.Holds [] a := by
      rintro a (⟨hf, -⟩ | ⟨hf, -⟩) <;> exact absurd hf List.not_mem_nil
    rw [hfields]
    exact ⟨fun a h => absurd h (hholds a), fun a h => absurd h (hholds a),
      fun a _ h => absurd h (hholds a)⟩
  obtain ⟨routines, -, -, hroutines, -⟩ := hgrounded.exists_routines
  unfold unitOf
  rw [hroutines, hprovisions]
  split <;> exact ⟨_, rfl⟩

theorem exists_unitsOf {catalog : Device.Catalog} {rs : List Resolved}
    (h : ∀ r ∈ rs, ∃ u, unitOf catalog r = .ok u) : ∃ us, unitsOf catalog rs = .ok us := by
  induction rs with
  | nil => exact ⟨[], rfl⟩
  | cons r rs ih =>
    obtain ⟨⟨u, hunit⟩, hrest⟩ := List.forall_mem_cons.1 h
    obtain ⟨us, hunits⟩ := ih hrest
    exact ⟨u :: us, by rw [unitsOf, hunit, hunits]; rfl⟩

/-- The classes of the module, nothing generated for them yet, and the owners of their functions. -/
def resolveVehicles : Except ModelError (Owners × List Resolved × Owners) := do
  let inherited ← Owners.ofClasses [rootClass]
  let resolved ← resolveAll vehicles.scope {} vehicles.drafts
  let owners ← inherited.claimAll (resolved.map fun r => (r.cls.name, entryNamesOf r))
  return (inherited, resolved, owners)

/-- A class with device copies that inherits a method from another one, with what implements it, and
brings a body of its own for a second method. -/
def IsCart (c : Class) : Prop :=
  c.name = "Cart" ∧ c.coprocessor = true ∧
    (∃ a ∈ c.chain, a.name = "Wheel" ∧ a.coprocessor = true) ∧
    (∃ e ∈ c.methods, e.name = "turn" ∧
      e.implementation = some ⟨"wheel_turn", "Wheel", .external⟩) ∧
    (∃ e ∈ c.methods, e.name = "brake" ∧
      e.implementation = some ⟨"Cart_brake", "Cart", .verbatim ""⟩) ∧
    passedPairs c =
      [("myriad_ctor", "CartClass_ctor"), ("myriad_cudafy", "CartClass_cudafy"),
       ("myriad_cudafy", "Cart_cudafy"), ("myriad_decudafy", "Cart_decudafy"),
       ("brake", "Cart_brake")]

instance : DecidablePred IsCart :=
  fun _ => inferInstanceAs (Decidable (_ ∧ _))

theorem build_vehicles : ∃ m, vehicles.build = .ok m ∧ ∃ u ∈ m.classes, IsCart u.cls := by
  -- the stages up to the owners are run; plans and routines are not, but neither class has fields
  obtain ⟨⟨inherited, rs, owners⟩, hresolve, hplain, r, hr, hcart⟩ :=
    exists_of_any_toOption (x := resolveVehicles)
    (P := fun x =>
      (∀ r ∈ x.2.1,
        ((catalogOf (vehicles.scope ++ x.2.1.map (·.cls))).plan r.cls.object).fields = [] ∧
          (provisionsOf r.cls.implemented).toOption.isSome) ∧
      ∃ r ∈ x.2.1, IsCart r.cls) (by decide +kernel)
  obtain ⟨_, hinherits, hresolve⟩ := bind_eq_ok.1 hresolve
  obtain ⟨_, hresolves, hresolve⟩ := bind_eq_ok.1 hresolve
  obtain ⟨_, hclaims, hresolve⟩ := bind_eq_ok.1 hresolve
  cases pure_eq_ok.1 hresolve
  have hsorted : sortByName vehicles.scope = [rootClass] := List.mergeSort_singleton rootClass
  have hunit : ∀ r ∈ rs, ∃ u, unitOf (catalogOf (vehicles.scope ++ rs.map (·.cls))) r = .ok u := by
    intro r hr
    obtain ⟨hfields, hprovisions⟩ := hplain r hr
    cases hps : provisionsOf r.cls.implemented with
    | ok ps => exact exists_unitOf_of_no_fields hfields hps
    | error e => simp [hps, Except.toOption] at hprovisions
  obtain ⟨us, hunits⟩ := exists_unitsOf hunit
  have hordered : order vehicles.drafts (vehicles.scope.map (·.name)) = .ok vehicles.drafts := by
    decide +kernel
  let m : Module :=
    { config := vehicles.config, kind := .user, classes := us
      globals := us.flatMap classVariables, functions := [] }
  have hstages : Stages vehicles m := {
    drafts := vehicles.drafts, inherited, resolved := rs, owners
    named := by decide, coprocessor := rfl, ordered := hordered
    inherits := hsorted ▸ hinherits, resolves := hresolves, claims := hclaims, units := hunits
    userNames := Builder.checkUserNames_eq_ok.2 fun _ h => absurd h List.not_mem_nil
    config := rfl, kind := rfl, globals := (List.append_nil _).symm, functions := rfl }
  refine ⟨m, hstages.build, ?_⟩
  obtain ⟨u, hu, hcls⟩ := List.mem_map.1 (unitsOf_cls hunits ▸ List.mem_map_of_mem hr)
  exact ⟨u, hu, hcls ▸ hcart⟩

end Sample

end Module

end ClassForge

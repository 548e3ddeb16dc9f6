import ClassForge.Proofs.Class.Supply
import ClassForge.Proofs.Module.Build
import ClassForge.Proofs.Module.Calls
import Mathlib.Logic.Function.Basic

/-!
# What the init routines install

Each class of a chain stores the pairs of its init routine in the slots of its class object, the
root first. What the slots hold at the end is what the method table says, and that is what the
nearest class of the chain supplies.
-/

namespace ClassForge.Module

open C ClassForge.Class

/-! ## Storing pairs -/

/-- What a class object holds in its slots. -/
abbrev Slots := String → Option String

/-- Stores the function of a pair in the slot of the method that the entry point belongs to. -/
def store (methods : List Method) (s : Slots) (p : Pair) : Slots :=
  match methods.find? (·.delegator.name == p.1) with
  | some m => Function.update s m.slot (some p.2)
  | none => s

/-- The slots of a class object once all classes of the chain have stored their pairs, the root
first. -/
def slotsOf (c : Class) : Slots :=
  c.chain.foldr (fun a s => (classCreation a).pairs.foldl (store a.methods) s) fun _ => none

/-- The pairs of a class store what the class implements, and leave the other slots alone. -/
theorem foldl_store {methods implemented : List Method} (s : Slots) (slot : String)
    (hknown : ∀ m ∈ implemented, methods.find? (·.delegator.name == m.delegator.name) = some m)
    (hslots : (implemented.map (·.slot)).Nodup) :
    (implemented.filterMap fun m => m.implementation.map fun i => (m.delegator.name, i.symbol)).foldl
        (store methods) s slot
      = ((implemented.find? (·.slot == slot)).bind (·.implementation.map (·.symbol))).or
          (s slot) := by
  induction implemented generalizing s with
  | nil => simp
  | cons m ms ih =>
    -- the entries that follow have other slots, so what this one stores stays
    obtain ⟨hfresh, hslots⟩ := List.nodup_cons.1 (List.map_cons ▸ hslots)
    have ih := fun s => ih s (fun x hx => hknown x (List.mem_cons_of_mem _ hx)) hslots
    have hnone : ms.find? (·.slot == m.slot) = none :=
      find?_key_eq_none.2 fun x hx heq => hfresh (List.mem_map.2 ⟨x, hx, heq⟩)
    cases himpl : m.implementation with
    | none =>
      by_cases hslot : m.slot = slot
      · subst hslot
        simp [himpl, ih, hnone]
      · simp [himpl, ih, hslot]
    | some i =>
      have hstore : store methods s (m.delegator.name, i.symbol)
          = Function.update s m.slot (some i.symbol) := by
        simp [store, hknown m List.mem_cons_self]
      by_cases hslot : m.slot = slot
      · subst hslot
        simp [himpl, ih, hnone, hstore]
      · simp [himpl, ih, hslot, hstore, Function.update_of_ne (Ne.symm hslot)]

/-! ## Along a chain -/

section Chain

variable {ds : List Draft} {c : Class}

/-- What the pairs of one class do to the slots. -/
theorem foldl_classPairs (h : Lineage ds c) (s : Slots) (slot : String) :
    (classCreation c).pairs.foldl (store c.methods) s slot
      = ((c.implemented.find? (·.slot == slot)).bind (·.implementation.map (·.symbol))).or
          (s slot) := by
  refine foldl_store s slot (fun m hm => ?_) ?_
  · exact find?_key_of_mem (f := fun m : Method => m.delegator.name) h.delegators_nodup
      (List.mem_filter.1 hm).1
  · exact h.slots_nodup.sublist (List.filter_sublist.map _)

/-- The slots of a class object hold what the method table says, and nothing besides. -/
theorem slotsOf_eq (h : Lineage ds c) (slot : String) :
    slotsOf c slot
      = (c.methods.find? (·.slot == slot)).bind (·.implementation.map (·.symbol)) := by
  induction h with
  | root =>
    have himpl : rootClass.implemented = rootClass.methods := by decide
    have hroot := foldl_classPairs .root (fun _ => none) slot
    rw [himpl, Option.or_none] at hroot
    exact hroot
  | @derive ds base e d r hbase hres ih =>
    have hlin : Lineage (d :: ds) r.cls := .derive hbase hres
    obtain ⟨hd, -⟩ := EntryPoints.resolve_ok hres
    have hstep : slotsOf r.cls slot
        = ((r.cls.implemented.find? (·.slot == slot)).bind (·.implementation.map (·.symbol))).or
          (slotsOf base slot) := by
      rw [← foldl_classPairs hlin, slotsOf, hd.chain_eq]
      rfl
    rw [hstep, ih, Class.implemented, find?_filter_key hlin.slots_nodup]
    cases hfind : r.cls.methods.find? (·.slot == slot) with
    | none =>
      have hnone := find?_key_eq_none.1 hfind
      have hold : base.methods.find? (·.slot == slot) = none :=
        find?_key_eq_none.2 fun m hm => d.slot_inherit m ▸
          hnone (d.inherit m) (hd.mem_methods.2 (.inl ⟨m, hm, rfl⟩))
      simp [hold]
    | some m =>
      have hm := List.mem_of_find?_eq_some hfind
      obtain rfl := key_of_find? (f := Method.slot) hfind
      -- either the class's own pair fills the slot, or nothing has changed since the class above
      cases hown : m.providedBy r.cls.name with
      | true =>
        cases himpl : m.implementation with
        | none => simp [Method.providedBy, himpl] at hown
        | some i => simp [Option.filter_some, hown, himpl]
      | false =>
        have hold := hbase.implementation_of_not_provided hd hm (hd.name ▸ hown)
        rw [Option.filter_some, hown, Option.bind_some, ← hold]
        simp only [Method.slot, Name.slot_beq, method?, Option.map_bind, Function.comp_def]
        rfl

end Chain

/-- In a class of a module that builds, the pairs of the init routines fill the slots just as the
method table says, whatever modules the classes above come from. They are what the routines pass to
the class objects that they create. The class has a lineage that ends in a draft of the module, and
along any lineage of it each entry is what the nearest class of the chain supplies. A class that is
not abstract has no empty slot. -/
theorem slots_follow_table {b : Builder} {m : Module} {u : ClassUnit}
    (himports : ∀ c ∈ b.imports, Available c) (hbuild : b.build = .ok m) (hu : u ∈ m.classes) :
    u.init = initRoutine u.cls ∧
    (∀ a ∈ u.cls.chain, (initRoutine a).calls "myriad_new"
      = [(metaclassCreation a).arguments, (classCreation a).arguments]) ∧
    (∀ slot, slotsOf u.cls slot
      = (u.cls.methods.find? (·.slot == slot)).bind (·.implementation.map (·.symbol))) ∧
    (∀ e ∈ u.cls.methods, slotsOf u.cls e.slot = e.implementation.map (·.symbol)) ∧
    (∃ d ∈ b.drafts, ∃ above, Lineage (d :: above) u.cls) ∧
    (∀ ds, Lineage ds u.cls →
      u.cls.chain.map (·.name) = ds.map (·.name) ++ [Name.rootObject] ∧
      ∀ e ∈ u.cls.methods, e.implementation = nearest? ds e.name) ∧
    (u.cls.isAbstract = false → ∀ e ∈ u.cls.methods, (slotsOf u.cls e.slot).isSome) := by
  obtain ⟨s⟩ := build_ok hbuild
  obtain ⟨d, hd, above, base, r, horigin, hunit⟩ :=
    s.exists_origin (fun c hc => (himports c hc).sound) hu
  obtain ⟨hcls, -, -, -, hinit, -⟩ := unitOf_ok hunit
  rw [hinit, hcls]
  have hlin := horigin.lineage_cls
  have hentry : ∀ e ∈ r.cls.methods, slotsOf r.cls e.slot = e.implementation.map (·.symbol) := by
    intro e he
    rw [slotsOf_eq hlin, find?_key_of_mem hlin.slots_nodup he, Option.bind_some]
  refine ⟨rfl, fun a _ => calls_initRoutine a, slotsOf_eq hlin, hentry, ⟨d, hd, above, hlin⟩, ?_, ?_⟩
  · exact fun ds h => ⟨h.map_name_chain, fun e he => h.implementation_of_mem horigin.names he⟩
  · intro hconcrete e he
    rw [hentry e he, Option.isSome_map]
    exact horigin.derives.complete (horigin.derives.isAbstract ▸ hconcrete) e he

theorem slots_follow_table_sample : ∃ m u, Sample.tiles.build = .ok m ∧ u ∈ m.classes ∧
    u.name = "Tile" ∧ (∀ e ∈ u.cls.methods, slotsOf u.cls e.slot = e.implementation.map (·.symbol)) ∧
    ∀ e ∈ u.cls.methods, (slotsOf u.cls e.slot).isSome := by
  obtain ⟨m, hbuild, ⟨u, hu, hname, hconcrete⟩, -⟩ := Sample.build_tiles
  obtain ⟨-, -, -, hslots, -, -, hfull⟩ := slots_follow_table Sample.available_imports hbuild hu
  exact ⟨m, u, hbuild, hu, hname, hslots, hfull hconcrete⟩

end ClassForge.Module

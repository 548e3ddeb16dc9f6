import ClassForge.Module.Builder
import ClassForge.Proofs.C.Signature
import ClassForge.Proofs.History
import ClassForge.Proofs.Module.Declarations

/-!
# Globals and functions that are registered

A module's globals and functions share their names. A name keeps its place and its kind from the
first item that was registered under it, and an item is replaced where the policy allows it. What is
refused changes nothing.
-/

namespace ClassForge.Module

open C History

/-- An item that is to be registered with a builder. -/
inductive Registration where
  | global (v : Variable) (policy : Policy)
  | function (f : Function) (policy : Policy)
deriving Repr, DecidableEq

namespace Registration

/-- The name that the item is registered under. -/
def name : Registration → String
  | global v _ => v.name
  | function f _ => f.signature.name

/-- What happens if the name is taken. -/
def policy : Registration → Policy
  | global _ policy => policy
  | function _ policy => policy

/-- What may be registered: a global that is neither `void` nor has a storage class, or a function
that is not `static`. -/
def Admissible : Registration → Prop
  | global v _ => v.isVoid = false ∧ v.quals.storage = none
  | function f _ => f.signature.storage ≠ some .static

/-- The names of the registered items of the same kind. -/
def ownNames (b : Builder) : Registration → List String
  | global _ _ => b.globals.items.map (·.name)
  | function _ _ => b.functions.items.map (·.signature.name)

/-- The names of the registered items of the other kind. -/
def otherNames (b : Builder) : Registration → List String
  | global _ _ => b.functions.items.map (·.signature.name)
  | function _ _ => b.globals.items.map (·.name)

end Registration

namespace Builder

/-- The builder with an item more, of either kind. -/
def declare (b : Builder) : Registration → Except ModelError Builder
  | .global v policy => b.declareGlobal v policy
  | .function f policy => b.declareFunction f policy

/-- Registers an item. A refusal leaves the builder as it was. -/
def register (b : Builder) (r : Registration) : Except ModelError Unit × Builder :=
  match b.declare r with
  | .ok b' => (.ok (), b')
  | .error e => (.error e, b)

/-! ### What a registration does -/

theorem declareGlobal_eq_ok {b b' : Builder} {v : Variable} {policy : Policy} :
    b.declareGlobal v policy = .ok b' ↔
      (Registration.global v policy).Admissible ∧ v.name ∉ b.functions.names ∧
        (v.name ∈ b.globals.names → policy ≠ .strict) ∧
        b' = { b with globals := b.globals.put v.name v } := by
  unfold declareGlobal
  rw [check_bind_eq_ok, ModelError.ofType_eq_ok, Variable.checkStorable_eq_ok,
    ← Declarations.contains_iff]
  refine and_congr_right fun _ => ?_
  cases b.functions.contains v.name with
  | true => exact ⟨fun h => absurd h throw_bind_ne_ok, fun h => absurd rfl h.1⟩
  | false =>
    simp only [Bool.false_eq_true, if_false, not_false_eq_true, true_and]
    exact Declarations.declare_bind_eq_ok

theorem declareFunction_eq_ok {b b' : Builder} {f : Function} {policy : Policy} :
    b.declareFunction f policy = .ok b' ↔
      (Registration.function f policy).Admissible ∧ f.signature.name ∉ b.globals.names ∧
        (f.signature.name ∈ b.functions.names → policy ≠ .strict) ∧
        b' = { b with functions := b.functions.put f.signature.name f } := by
  unfold declareFunction
  rw [← Declarations.contains_iff]
  by_cases hstatic : f.signature.storage = some .static
  · simp only [hstatic, if_true, Registration.Admissible, ne_eq, not_true_eq_false, false_and,
      iff_false]
    exact throw_bind_ne_ok
  simp only [hstatic, if_false, Registration.Admissible, ne_eq, not_false_eq_true, true_and]
  cases b.globals.contains f.signature.name with
  | true => exact ⟨fun h => absurd h throw_bind_ne_ok, fun h => absurd rfl h.1⟩
  | false =>
    simp only [Bool.false_eq_true, if_false, not_false_eq_true, true_and]
    exact Declarations.declare_bind_eq_ok

/-- What a registration can do: it is refused, or its item is put among those of its kind. -/
inductive Registers (b : Builder) : Registration → Except ModelError Unit → Builder → Prop
  | refused {r : Registration} {e : ModelError} : Registers b r (.error e) b
  | global {v : Variable} {policy : Policy} (hfree : v.name ∉ b.functions.names) :
    Registers b (.global v policy) (.ok ()) { b with globals := b.globals.put v.name v }
  | function {f : Function} {policy : Policy} (hfree : f.signature.name ∉ b.globals.names) :
    Registers b (.function f policy) (.ok ())
      { b with functions := b.functions.put f.signature.name f }

theorem registers (b : Builder) (r : Registration) :
    Registers b r (b.register r).1 (b.register r).2 := by
  unfold register
  cases hdeclare : b.declare r with
  | error e => exact .refused
  | ok b' =>
    cases r with
    | global v policy =>
      obtain ⟨-, hfree, -, rfl⟩ := declareGlobal_eq_ok.1 hdeclare
      exact .global hfree
    | function f policy =>
      obtain ⟨-, hfree, -, rfl⟩ := declareFunction_eq_ok.1 hdeclare
      exact .function hfree

theorem isOk_register {b : Builder} {r : Registration} :
    (b.register r).1.isOk = true ↔ ∃ b', b.declare r = .ok b' := by
  unfold register
  cases b.declare r <;> simp [Except.isOk, Except.toBool]

theorem reverts_register : Reverts register := by
  intro b r e herr
  have hregisters := b.registers r
  rw [herr] at hregisters
  generalize (b.register r).2 = b' at hregisters ⊢
  cases hregisters
  rfl

/-! ### What a history leaves -/

/-- The globals that were registered, those that were replaced later included. -/
def registeredGlobals (log : List (Registration × Except ModelError Unit)) : List Variable :=
  log.filterMap fun
    | (.global v _, .ok _) => some v
    | _ => none

/-- The functions that were registered, those that were replaced later included. -/
def registeredFunctions (log : List (Registration × Except ModelError Unit)) : List Function :=
  log.filterMap fun
    | (.function f _, .ok _) => some f
    | _ => none

/-- The builder lists what was registered, and globals and functions share no name. -/
structure Lists (b : Builder) (log : List (Registration × Except ModelError Unit)) : Prop where
  globals : b.globals.Records (·.name) (registeredGlobals log)
  functions : b.functions.Records (·.signature.name) (registeredFunctions log)
  disjoint : ∀ n ∈ b.globals.names, n ∉ b.functions.names

theorem Lists.register {b : Builder} {log : List (Registration × Except ModelError Unit)}
    (h : b.Lists log) (r : Registration) :
    (b.register r).2.Lists (log ++ [(r, (b.register r).1)]) := by
  have hregisters := b.registers r
  generalize (b.register r).1 = outcome, (b.register r).2 = b' at hregisters ⊢
  cases hregisters with
  | refused =>
    exact ⟨by simpa [registeredGlobals] using h.globals,
      by simpa [registeredFunctions] using h.functions, h.disjoint⟩
  | @global v _ hfree =>
    refine ⟨?_, by simpa [registeredFunctions] using h.functions, fun n hn => ?_⟩
    · rw [registeredGlobals, List.filterMap_append]
      exact h.globals.put rfl
    · rcases Declarations.mem_names_put.1 hn with hold | rfl
      · exact h.disjoint n hold
      · exact hfree
  | @function f _ hfree =>
    refine ⟨by simpa [registeredGlobals] using h.globals, ?_, fun n hn hmem => ?_⟩
    · rw [registeredFunctions, List.filterMap_append]
      exact h.functions.put rfl
    · rcases Declarations.mem_names_put.1 hmem with hold | rfl
      · exact h.disjoint n hn hold
      · exact hfree hn

/-- Registering globals and functions does nothing else to a builder. -/
theorem register_frame (b : Builder) (r : Registration) :
    (b.register r).2 =
      { b with globals := (b.register r).2.globals, functions := (b.register r).2.functions } := by
  have hregisters := b.registers r
  generalize (b.register r).1 = outcome, (b.register r).2 = b' at hregisters ⊢
  cases hregisters <;> rfl

/-- When a registration is refused, where the builder lists what was registered. -/
theorem register_refused_iff {b : Builder} {log : List (Registration × Except ModelError Unit)}
    (h : b.Lists log) (r : Registration) :
    (b.register r).1.isOk = false ↔
      ¬ r.Admissible ∨ r.name ∈ r.otherNames b ∨ r.name ∈ r.ownNames b ∧ r.policy = .strict := by
  rw [← Bool.not_eq_true, isOk_register]
  cases r with
  | global v policy =>
    simp only [declare, declareGlobal_eq_ok, exists_and_left, exists_eq, and_true,
      Registration.name, Registration.policy, Registration.ownNames, Registration.otherNames,
      h.globals.keyed.names_eq, h.functions.keyed.names_eq]
    tauto
  | function f policy =>
    simp only [declare, declareFunction_eq_ok, exists_and_left, exists_eq, and_true,
      Registration.name, Registration.policy, Registration.ownNames, Registration.otherNames,
      h.globals.keyed.names_eq, h.functions.keyed.names_eq]
    tauto

/-- A registration is refused just when its item is not admissible, an item of the other kind holds
its name, or one of the same kind does and the policy is strict. What is refused changes nothing,
now or later. After any registrations, globals and functions are listed once for each name, in the
order in which the names were first registered, each name with the item that was registered last;
and no name is in both lists. -/
theorem items_latest (config : Config) (drafts : List ClassForge.Class.Draft)
    (imports : List ClassForge.Class) (rs : List Registration) :
    let start : Builder := { config, drafts, imports }
    let log := outcomes register start rs
    let b := after register start rs
    (∀ r, (b.register r).1.isOk = false ↔
      ¬ r.Admissible ∨ r.name ∈ r.otherNames b ∨ r.name ∈ r.ownNames b ∧ r.policy = .strict) ∧
    (∀ r, (b.register r).1.isOk = false → (b.register r).2 = b) ∧
    (∀ kept, kept.Sublist log → kept.filter (·.2.isOk) = log.filter (·.2.isOk) →
      outcomes register start (kept.map (·.1)) = kept ∧
        after register start (kept.map (·.1)) = b) ∧
    Declarations.Latest (·.name) (registeredGlobals log) b.globals.items ∧
    Declarations.Latest (·.signature.name) (registeredFunctions log) b.functions.items ∧
    List.Disjoint (b.globals.items.map (·.name)) (b.functions.items.map (·.signature.name)) ∧
    b = { start with globals := b.globals, functions := b.functions } := by
  intro start log b
  have hstart : start.Lists [] := by
    refine ⟨Declarations.records_empty, Declarations.records_empty, ?_⟩
    simp [start, Declarations.names]
  have hlists : b.Lists log :=
    outcomes_induct (P := fun log b => Lists b log) (fun _ _ r h => h.register r) hstart rs
  refine ⟨register_refused_iff hlists, fun r hr => ?_,
    fun kept => outcomes_of_kept reverts_register, hlists.globals.latest, hlists.functions.latest,
    ?_, ?_⟩
  · cases houtcome : (b.register r).1 with
    | error e => exact reverts_register b r e houtcome
    | ok =>
      rw [houtcome] at hr
      cases hr
  · rw [hlists.globals.keyed.names_eq, hlists.functions.keyed.names_eq]
    exact hlists.disjoint
  · -- no step touches anything but the two lists
    refine after_induct (P := fun b : Builder =>
      b = { start with globals := b.globals, functions := b.functions }) (fun b r hb => ?_) rfl rs
    rw [register_frame]
    exact congrArg (fun c : Builder => { c with
      globals := (b.register r).2.globals, functions := (b.register r).2.functions }) hb

namespace Sample

def start : Builder := { config := { name := "Cortex" }, drafts := [], imports := [] }

def gain : Variable := { name := "gain", type := .int }

def level : Variable := { name := "level", type := .primitive .double }

/-- The same name as `gain`, and another type. -/
def finerGain : Variable := { name := "gain", type := .primitive .double }

def relax : Function where
  signature := { name := "relax", params := [], returns := .void, role := .free }

/-- The function's name is no name for a global, a `void` global is refused, and `gain` is replaced
where that is allowed. -/
def items : List Registration :=
  [.global gain .strict, .function relax .strict, .global { level with name := "relax" } .override,
    .global { gain with type := .void } .override, .global level .strict,
    .global finerGain .override]

end Sample

open Builder.Sample

theorem items_latest_sample :
    let b := after register start items
    (b.register (.global gain .strict)).1.isOk = false ∧
      (b.register (.global gain .strict)).2 = b ∧
      after register start
        [.global gain .strict, .function relax .strict, .global level .strict,
          .global finerGain .override] = b ∧
      b.globals.items = [finerGain, level] ∧ b.functions.items = [relax] ∧
      Declarations.Latest (·.name) [gain, level, finerGain] b.globals.items := by
  obtain ⟨hrefused, hunchanged, hkept, hglobals, -⟩ := items_latest start.config [] [] items
  have hrefuse := (hrefused (.global gain .strict)).2 (.inr (.inr ⟨by decide, rfl⟩))
  have hlog := hkept ((outcomes register start items).filter
    (·.2.isOk)) List.filter_sublist rfl
  exact ⟨hrefuse, hunchanged _ hrefuse, hlog.2, rfl, rfl, hglobals⟩

end Builder

end ClassForge.Module

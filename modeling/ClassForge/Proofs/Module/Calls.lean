import ClassForge.Module.Startup
import ClassForge.Proofs.Class.Name

/-!
# Calls of the init routine

The init routine of a class creates the metaclass and the class object, each by one call whose
arguments stand on lines of their own. Between the arguments that every such call has, it passes the
pairs of an entry point and a function.
-/

namespace ClassForge

open C

/-! ## Calls that take several lines -/

namespace C

/-- The arguments of a call, if it opens with the piece `c` and they are what follows. -/
def Code.argumentsAt (callee : String) (c : Code) (next : Option Code) : List (List Code) :=
  match c, next with
  | .line text, some (.deeper arguments) => if text = callee ++ "(" then [arguments] else []
  | _, _ => []

mutual

/-- The arguments of each call of a function whose arguments stand on lines of their own. -/
def Code.calls (callee : String) : Code → List (List Code)
  | .line _ | .blank => []
  | .block body | .deeper body | .whenDefined _ body => Code.allCalls callee body
  | .ifDefined _ body otherwise => Code.allCalls callee body ++ Code.allCalls callee otherwise

/-- The arguments of the calls in several pieces of code, in order. -/
def Code.allCalls (callee : String) : List Code → List (List Code)
  | [] => []
  | c :: cs => c.argumentsAt callee cs.head? ++ c.calls callee ++ Code.allCalls callee cs

end

/-- The arguments of the calls that a generated function makes. -/
def FunctionDef.calls (callee : String) (f : FunctionDef) : List (List Code) :=
  match f.body with
  | .generated code => Code.allCalls callee code
  | .verbatim _ => []

end C

namespace Module

open ClassForge.Class

/-! ## What the init routine passes -/

/-- The line that passes a pair. -/
def pairLine (p : Pair) : Code :=
  .line (p.1 ++ ", " ++ p.2 ++ ",")

/-- The arguments of the call that creates a class object. -/
def Creation.arguments (n : Creation) : List Code :=
  [.line (n.metaclass ++ ","), .line (n.superclass ++ ","),
    .line ("sizeof(struct " ++ n.object ++ "),")]
    ++ n.pairs.map pairLine ++ [.line "0"]

/-- The pairs that the init routine of a class passes. -/
def passedPairs (c : Class) : List Pair :=
  metaclassPairs c ++ classPairs c

theorem argumentsAt_eq_nil {callee : String} {c : Code} {next : Option Code}
    (h : ∀ arguments, next ≠ some (.deeper arguments)) : c.argumentsAt callee next = [] := by
  unfold Code.argumentsAt
  split
  next => exact absurd rfl (h _)
  next => rfl

/-- Code makes the calls of its two parts, where the second does not open with the arguments of a
call that the first ends in. -/
theorem allCalls_append {callee : String} {cs cs' : List Code}
    (h : ∀ arguments, cs'.head? ≠ some (.deeper arguments)) :
    Code.allCalls callee (cs ++ cs') = Code.allCalls callee cs ++ Code.allCalls callee cs' := by
  induction cs with
  | nil => rfl
  | cons c cs ih =>
    have hfirst : c.argumentsAt callee (cs ++ cs').head? = c.argumentsAt callee cs.head? := by
      cases cs with
      | nil => rw [List.nil_append, argumentsAt_eq_nil h, argumentsAt_eq_nil (by simp)]
      | cons c' cs => rfl
    rw [List.cons_append, Code.allCalls, Code.allCalls, ih, hfirst, ← List.append_assoc]

/-- Lines that open nothing make no call. -/
theorem allCalls_of_lines {callee : String} {cs : List Code} (h : ∀ c ∈ cs, ∃ text, c = .line text) :
    Code.allCalls callee cs = [] := by
  induction cs with
  | nil => rfl
  | cons c cs ih =>
    obtain ⟨⟨text, rfl⟩, hcs⟩ := List.forall_mem_cons.1 h
    -- arguments of a call stand in a deeper block behind its line, and here are only lines
    have hnext : ∀ arguments, cs.head? ≠ some (.deeper arguments) := by
      intro arguments heq
      obtain ⟨text', htext⟩ := hcs _ (List.mem_of_head? heq)
      cases htext
    rw [Code.allCalls, argumentsAt_eq_nil hnext, ih hcs]
    rfl

theorem allCalls_arguments {callee : String} (n : Creation) :
    Code.allCalls callee n.arguments = [] := by
  refine allCalls_of_lines fun c hc => ?_
  simp only [Creation.arguments, List.mem_append, List.mem_map, List.mem_cons, List.not_mem_nil,
    or_false] at hc
  rcases hc with ((rfl | rfl | rfl) | ⟨p, -, rfl⟩) | rfl <;> exact ⟨_, rfl⟩

/-- A class object is created by one call. -/
theorem calls_code (n : Creation) : Code.allCalls "myriad_new" n.code = [n.arguments] := by
  -- the assignment has a deeper block behind it as well, but it opens no call
  have hassign : n.object ++ " =" ≠ "myriad_new(" := Name.ne_of_getLast? (by simp)
  have hcode : n.code =
      [.line ("if (!" ++ n.object ++ ")"),
       .block
        (.line (n.object ++ " =") :: .deeper [.line "myriad_new(", .deeper n.arguments, .line ");"]
          :: n.handle.toList.flatMap (publishCode n.object))] := by
    rw [Creation.code]
    cases n.handle with
    | none => rfl
    | some handle =>
      rw [Option.toList_some, List.flatMap_singleton]
      rfl
  have hpublish :
      Code.allCalls "myriad_new" (n.handle.toList.flatMap (publishCode n.object)) = [] := by
    cases n.handle with
    | none => rfl
    | some handle => simp [publishCode, Code.allCalls, Code.argumentsAt, Code.calls]
  simp [hcode, Code.allCalls, Code.argumentsAt, Code.calls, hassign, allCalls_arguments, hpublish]

theorem calls_initRoutine (c : Class) :
    (initRoutine c).calls "myriad_new"
      = [(metaclassCreation c).arguments, (classCreation c).arguments] := by
  have hsuper : Code.allCalls "myriad_new" (if c.superclassName = Name.rootObject then []
      else [.line (Name.init c.superclassName ++ "(init_cuda);"), .blank]) = [] := by
    split
    · rfl
    · rfl
  have hcode : ∀ n : Creation, ∀ arguments, n.code.head? ≠ some (.deeper arguments) :=
    fun _ _ => by simp [Creation.code]
  calc (initRoutine c).calls "myriad_new"
    _ = Code.allCalls "myriad_new" (initCode c) := rfl
    _ = [(metaclassCreation c).arguments, (classCreation c).arguments] := by
        rw [initCode, allCalls_append (hcode _), allCalls_append (by simp),
          allCalls_append (hcode _), hsuper, calls_code, calls_code]
        rfl

end Module

end ClassForge

import ClassForge.Proofs.C.Identifier
import ClassForge.Proofs.Module.Files
import ClassForge.Proofs.Module.Passed
import ClassForge.Proofs.Text.Split
import Mathlib.Logic.Function.Basic

/-!
# Device copies of class objects

The routine that copies a class object to the device starts from the host's slots. For each entry
that the author of the class implements, it reads the device pointer of the implementation and
stores it into the slot of the copy. It stores into no other slot: what a class above supplies stays
as it is on the host. The body of the routine is given in full, as the code of a few steps, and what
the steps do to the members of the copy is followed one after the other.
-/

namespace ClassForge

open C

/-! ## Lines of code -/

namespace C

mutual

/-- The lines of a piece of code, whatever stands around them. -/
def Code.lines : Code → List String
  | .line text => [text]
  | .blank => []
  | .block body | .deeper body | .whenDefined _ body => Code.allLines body
  | .ifDefined _ body otherwise => Code.allLines body ++ Code.allLines otherwise

/-- The lines of several pieces of code, in order. -/
def Code.allLines : List Code → List String
  | [] => []
  | c :: cs => c.lines ++ Code.allLines cs

end

/-- The lines of a generated function. -/
def FunctionDef.lines (f : FunctionDef) : List String :=
  match f.body with
  | .generated code => Code.allLines code
  | .verbatim _ => []

theorem Code.allLines_append (cs cs' : List Code) :
    Code.allLines (cs ++ cs') = Code.allLines cs ++ Code.allLines cs' := by
  induction cs with
  | nil => rfl
  | cons c cs ih => rw [List.cons_append, allLines, allLines, ih, List.append_assoc]

theorem Code.allLines_flatMap {α : Type} (f : α → List Code) (l : List α) :
    Code.allLines (l.flatMap f) = l.flatMap fun a => Code.allLines (f a) := by
  induction l with
  | nil => rfl
  | cons a as ih => rw [List.flatMap_cons, allLines_append, ih, List.flatMap_cons]

end C

namespace Module

open ClassForge.Class Output

/-! ## Reading a device pointer and storing it -/

/-- The line that reads a device pointer into a variable named like the slot. -/
def readLine (slot symbol : String) : String :=
  "cudaMemcpyFromSymbol((void**) &" ++ slot ++ ", (const void*) &" ++ symbol
    ++ ", sizeof(void*), 0, cudaMemcpyDeviceToHost)"

/-- The line that stores that variable into a slot of the copy. -/
def storeLine (tag slot : String) : String :=
  "((struct " ++ tag ++ "*) &copy_class)->" ++ slot ++ " = " ++ slot ++ ";"

/-- Reads a device pointer and stores it into the slot of an entry. -/
def patchCode (e : Method) (symbol : String) : List Code :=
  [.line (e.typedef ++ " " ++ e.slot ++ " = NULL;"),
   .line "CUDA_CHECK_RETURN(",
   .deeper [.line (readLine e.slot symbol)],
   .line ");",
   .line (storeLine (Name.metaclass e.introducedBy) e.slot)]

theorem head?_storeLine (tag slot : String) : (storeLine tag slot).toList.head? = some '(' := by
  simp [storeLine]

theorem head?_readLine (slot symbol : String) : (readLine slot symbol).toList.head? = some 'c' := by
  unfold readLine
  simp

theorem storeLine_inj {tag tag' slot slot' : String} (h : ' ' ∉ slot.toList)
    (h' : ' ' ∉ slot'.toList) (heq : storeLine tag slot = storeLine tag' slot') :
    tag = tag' ∧ slot = slot' := by
  -- the slot is the last word of the line
  have hwords : ∀ tag slot : String, (storeLine tag slot).toList
      = ("((struct " ++ tag ++ "*) &copy_class)->" ++ slot ++ " =").toList
        ++ ' ' :: (slot ++ ";").toList := by
    simp [storeLine]
  have hlists := congrArg String.toList heq
  rw [hwords, hwords] at hlists
  have hlast := (append_cons_inj_right (by simpa using h) (by simpa using h') hlists).2
  obtain rfl : slot = slot' := by simpa [String.toList_inj] using hlast
  exact ⟨by simpa [storeLine] using heq, rfl⟩

/-- Declaring the variable for a slot is not storing it. -/
theorem storeLine_ne_declaration {tag type slot slot' : String} (h : ' ' ∉ slot.toList)
    (hnull : slot ≠ "NULL") : storeLine tag slot ≠ type ++ " " ++ slot' ++ " = NULL;" := by
  intro heq
  have hlists : ("((struct " ++ tag ++ "*) &copy_class)->" ++ slot ++ " =").toList
        ++ ' ' :: (slot ++ ";").toList
      = (type ++ " " ++ slot' ++ " =").toList ++ ' ' :: "NULL;".toList := by
    simpa [storeLine] using congrArg String.toList heq
  have hlast := (append_cons_inj_right (by simpa using h) (by decide) hlists).2
  have hword : slot ++ ";" = "NULL" ++ ";" := String.toList_inj.1 hlast
  exact hnull ((String.append_left_inj _).1 hword)

/-! ## Steps on the copy -/

/-- A step that the routine takes on its copy of a class object. -/
inductive CopyStep where
  /-- The copy starts as the host's class object. -/
  | start
  /-- The slot of an entry gets the function that a device symbol points to. -/
  | patch (e : Method) (symbol : String)
  /-- The superclass becomes the one on the device. -/
  | relink

namespace CopyStep

/-- The code of a step, in the routine of a class. -/
def code (c : Class) : CopyStep → List Code
  | start => [.line ("struct " ++ c.metaclass.name ++ " copy_class = *my_class;")]
  | patch e symbol => patchCode e symbol
  | relink =>
    [.line ("const struct MyriadClass* super_class = (const struct MyriadClass*) "
      ++ c.superclassName ++ ";"),
     .line "memcpy((void**) &copy_class_class->super, &super_class->device_class, sizeof(void*));"]

/-- What a member of the copy holds. -/
inductive Held where
  /-- What the member holds in the host's class object. -/
  | asOnHost
  /-- The function that a device symbol points to. -/
  | function (symbol : String)
  /-- The superclass on the device. -/
  | superclass

/-- What the members of the copy hold behind a step. -/
def perform (copy : String → Held) : CopyStep → String → Held
  | start => fun _ => .asOnHost
  | patch e symbol => Function.update copy e.slot (.function symbol)
  | relink => Function.update copy "super" .superclass

/-- What the members of the copy hold behind several steps. -/
def run (steps : List CopyStep) (copy : String → Held) : String → Held :=
  steps.foldl perform copy

theorem run_cons (step : CopyStep) (steps : List CopyStep) (copy : String → Held) :
    run (step :: steps) copy = run steps (step.perform copy) := rfl

theorem run_append (steps steps' : List CopyStep) (copy : String → Held) :
    run (steps ++ steps') copy = run steps' (run steps copy) :=
  List.foldl_append

section Patches

variable {symbol : Method → String} {es : List Method}

/-- Patches leave the members alone that are no slots of theirs. -/
theorem run_patches_of_forall_ne {slot : String} (h : ∀ e ∈ es, e.slot ≠ slot)
    (copy : String → Held) : run (es.map fun e => patch e (symbol e)) copy slot = copy slot := by
  induction es generalizing copy with
  | nil => rfl
  | cons e es ih =>
    obtain ⟨hne, hrest⟩ := List.forall_mem_cons.1 h
    rw [List.map_cons, run_cons, ih hrest, perform, Function.update_of_ne hne.symm]

/-- Where no two entries share a slot, what a patch stores is there in the end. -/
theorem run_patches_of_mem (hslots : (es.map (·.slot)).Nodup) {e : Method} (he : e ∈ es)
    (copy : String → Held) :
    run (es.map fun e => patch e (symbol e)) copy e.slot = .function (symbol e) := by
  induction es generalizing copy with
  | nil => exact absurd he List.not_mem_nil
  | cons e' es ih =>
    obtain ⟨hfresh, hslots⟩ := List.nodup_cons.1 (List.map_cons ▸ hslots)
    rw [List.map_cons, run_cons]
    rcases List.mem_cons.1 he with rfl | he
    · -- the patches behind are for other slots
      have hothers : ∀ e' ∈ es, e'.slot ≠ e.slot :=
        fun e' he' heq => hfresh (List.mem_map.2 ⟨e', he', heq⟩)
      rw [run_patches_of_forall_ne hothers, perform, Function.update_self]
    · exact ih hslots he _

end Patches

end CopyStep

/-! ## The routine -/

/-- The steps that are taken where the copy is to be written anew: the entries that the author of
the class implements are patched, then the superclass follows. -/
def renewal (c : Class) : List CopyStep :=
  c.deviceSlots.map (fun e => .patch e (Name.devicePointer c.name e.name)) ++ [.relink]

/-- For all members but the superclass what counts is the patches. -/
theorem run_renewal {c : Class} {slot : String} (h : slot ≠ "super")
    (copy : String → CopyStep.Held) :
    CopyStep.run (.start :: renewal c) copy slot
      = CopyStep.run (c.deviceSlots.map fun e => .patch e (Name.devicePointer c.name e.name))
          (fun _ => .asOnHost) slot := by
  rw [renewal, CopyStep.run_cons, CopyStep.run_append]
  exact Function.update_of_ne h _ _

/-- The body of a routine that copies a class object: the copy starts as the host's class object,
and if `clobber` is set some steps follow. -/
def copyBody (c : Class) (steps : List CopyStep) : List Code :=
  let metaclass := "struct " ++ c.metaclass.name
  [.ifDefined "CUDA"
    (.line (metaclass ++ "* my_class = (" ++ metaclass ++ "*) _self;") :: CopyStep.start.code c
      ++ [.line "struct MyriadClass* copy_class_class = (struct MyriadClass*) &copy_class;",
          .blank,
          .line "if (clobber)",
          .block (steps.flatMap (·.code c)),
          .blank,
          .line ("return super_cudafy(" ++ Name.metaclass c.superclassName
            ++ ", (void*) &copy_class, 0);")])
    [.line "return NULL;"]]

/-- The routine is made of these steps and has no other lines. -/
theorem classToDeviceCode_eq (c : Class) : Device.classToDeviceCode c = copyBody c (renewal c) := by
  have hpatches : (renewal c).flatMap (·.code c)
      = c.deviceSlots.flatMap (Device.slotToDevice c.name) ++ CopyStep.relink.code c := by
    rw [renewal, List.flatMap_append, List.flatMap_map, List.flatMap_singleton]
    rfl
  rw [copyBody, hpatches]
  rfl

/-- The routine's lines that do not depend on the method table. -/
def frameLines (c : Class) : List String :=
  let metaclass := "struct " ++ c.metaclass.name
  [metaclass ++ "* my_class = (" ++ metaclass ++ "*) _self;",
   metaclass ++ " copy_class = *my_class;",
   "struct MyriadClass* copy_class_class = (struct MyriadClass*) &copy_class;",
   "if (clobber)",
   "const struct MyriadClass* super_class = (const struct MyriadClass*) " ++ c.superclassName ++ ";",
   "memcpy((void**) &copy_class_class->super, &super_class->device_class, sizeof(void*));",
   "return super_cudafy(" ++ Name.metaclass c.superclassName ++ ", (void*) &copy_class, 0);",
   "return NULL;"]

/-- The lines for one entry. -/
def patchLines (e : Method) (symbol : String) : List String :=
  [e.typedef ++ " " ++ e.slot ++ " = NULL;", "CUDA_CHECK_RETURN(", readLine e.slot symbol, ");",
   storeLine (Name.metaclass e.introducedBy) e.slot]

theorem allLines_slotToDevice (cls : String) (e : Method) :
    Code.allLines (Device.slotToDevice cls e) = patchLines e (Name.devicePointer cls e.name) := rfl

theorem mem_lines_classToDeviceCode {c : Class} {l : String} :
    l ∈ Code.allLines (Device.classToDeviceCode c) ↔ l ∈ frameLines c ∨
      ∃ e ∈ c.deviceSlots, l ∈ patchLines e (Name.devicePointer c.name e.name) := by
  by_cases hslot : ∃ e ∈ c.deviceSlots, l ∈ patchLines e (Name.devicePointer c.name e.name)
  · simp only [hslot, or_true, iff_true]
    simp [Device.classToDeviceCode, Code.allLines, Code.lines, Code.allLines_append,
      Code.allLines_flatMap, allLines_slotToDevice, hslot]
  · simp only [hslot, or_false]
    simp [Device.classToDeviceCode, frameLines, Code.allLines, Code.lines, Code.allLines_append,
      Code.allLines_flatMap, allLines_slotToDevice, Device.classPointer, Name.rootMetaclass, hslot]

/-- Each of the lines that do not depend on the table opens with a letter, and all but one end in a
semicolon. -/
theorem ends_of_mem_frameLines {c : Class} {l : String} (h : l ∈ frameLines c) :
    l.toList.head? ≠ some '(' ∧ (l = "if (clobber)" ∨ l.toList.getLast? = some ';') := by
  simp only [frameLines, List.mem_cons, List.not_mem_nil, or_false] at h
  rcases h with rfl | rfl | rfl | rfl | rfl | rfl | rfl | rfl <;> simp [List.getLast?_cons]

section Made

variable {c : Class} {e : Method}

theorem slot_ne_null : e.slot ≠ "NULL" :=
  Name.ne_of_head? (by simp [Method.slot, Name.slot])

theorem slot_ne_super : e.slot ≠ "super" :=
  Name.ne_of_head? (by simp [Method.slot, Name.slot])

variable (hc : c.Made) (he : e ∈ c.methods)
include hc he

/-- A slot has no character that cannot stand in an identifier. -/
theorem notMem_slot {char : Char} (h : isNameChar char = false) :
    char ∉ e.slot.toList := by
  have hmy : char ∉ "my_".toList :=
    notMem_of_isIdentifier (show isIdentifier "my_" = true by decide) h
  rw [Method.slot, Name.slot, String.toList_append, List.mem_append, not_or]
  exact ⟨hmy, notMem_of_isIdentifier (hc e he).isIdentifier h⟩

/-- The lines for one entry store into no slot but that entry's. -/
theorem eq_of_storeLine_mem_patchLines {e' : Method} (he' : e' ∈ c.methods) {tag symbol : String}
    (h : storeLine tag e.slot ∈ patchLines e' symbol) :
    e'.slot = e.slot ∧ tag = Name.metaclass e'.introducedBy := by
  have hspace : ' ' ∉ e.slot.toList := notMem_slot hc he (by decide)
  simp only [patchLines, List.mem_cons, List.not_mem_nil, or_false] at h
  -- of the five lines of a patch only the last is a store into the copy
  rcases h with h | h | h | h | h
  · exact absurd h (storeLine_ne_declaration hspace slot_ne_null)
  · exact absurd h (Name.ne_of_head? (by simp [head?_storeLine]))
  · exact absurd h (Name.ne_of_head? (by simp [head?_storeLine, head?_readLine]))
  · exact absurd h (Name.ne_of_head? (by simp [head?_storeLine]))
  · obtain ⟨htag, hslot⟩ := storeLine_inj hspace (notMem_slot hc he' (by decide)) h
    exact ⟨hslot.symm, htag⟩

/-- The routine stores into no slot but those of the entries that the class's author implements. -/
theorem mem_deviceSlots_of_storeLine_mem (hslots : (c.methods.map (·.slot)).Nodup) {tag : String}
    (h : storeLine tag e.slot ∈ Code.allLines (Device.classToDeviceCode c)) : e ∈ c.deviceSlots := by
  rcases mem_lines_classToDeviceCode.1 h with hframe | ⟨e', he', hl⟩
  · exact absurd (head?_storeLine ..) (ends_of_mem_frameLines hframe).1
  · have hmem : e' ∈ c.methods := (List.mem_filter.1 (List.mem_filter.1 he').1).1
    obtain ⟨hslot, -⟩ := eq_of_storeLine_mem_patchLines hc he hmem hl
    obtain rfl := eq_of_key_eq (f := Method.slot) hslots hmem he hslot
    exact he'

omit hc he in
/-- A slot that the routine patches holds a device pointer in the end. -/
theorem run_of_mem_deviceSlots (hslots : (c.methods.map (·.slot)).Nodup) (he : e ∈ c.deviceSlots)
    (copy : String → CopyStep.Held) : CopyStep.run (.start :: renewal c) copy e.slot
      = .function (Name.devicePointer c.name e.name) := by
  have hnodup : (c.deviceSlots.map (·.slot)).Nodup :=
    hslots.sublist ((List.filter_sublist.trans List.filter_sublist).map _)
  rw [run_renewal slot_ne_super]
  exact CopyStep.run_patches_of_mem hnodup he _

omit hc in
/-- Any other slot holds what it holds on the host. -/
theorem run_of_notMem_deviceSlots (hslots : (c.methods.map (·.slot)).Nodup)
    (hother : e ∉ c.deviceSlots) (copy : String → CopyStep.Held) :
    CopyStep.run (.start :: renewal c) copy e.slot = .asOnHost := by
  have hne : ∀ e' ∈ c.deviceSlots, e'.slot ≠ e.slot := by
    intro e' he' heq
    have hmem : e' ∈ c.methods := (List.mem_filter.1 (List.mem_filter.1 he').1).1
    exact hother (eq_of_key_eq (f := Method.slot) hslots hmem he heq ▸ he')
  rw [run_renewal slot_ne_super, CopyStep.run_patches_of_forall_ne hne]

end Made

/-- The entries that the author of a class implements are told by what they hold. -/
theorem mem_deviceSlots_iff {c : Class} {e : Method} : e ∈ c.deviceSlots ↔
    e ∈ c.methods ∧
      ∃ i, e.implementation = some i ∧ i.isUsers = true ∧ i.providedBy = c.name := by
  simp only [deviceSlots, implemented, List.mem_filter, Method.providedBy, Option.any_eq_true,
    beq_iff_eq, and_assoc]
  refine and_congr_right fun _ => ⟨?_, ?_⟩
  · rintro ⟨⟨i, himpl, hprovider⟩, j, himpl', husers⟩
    obtain rfl : i = j := Option.some.inj (himpl.symm.trans himpl')
    exact ⟨i, himpl, husers, hprovider⟩
  · rintro ⟨i, himpl, husers, hprovider⟩
    exact ⟨⟨i, himpl, hprovider⟩, i, himpl, husers⟩

section Build

variable {b : Builder} {m : Module} {u : ClassUnit}

/-- The classes with copy routines are those with device copies. -/
theorem isSome_routines (s : Stages b m) (hu : u ∈ m.classes) :
    u.routines.isSome = u.cls.coprocessor := by
  obtain ⟨_, -, hunit⟩ := s.exists_unitOf hu
  obtain ⟨hcls, -, -, -, -, hsome, -⟩ := unitOf_ok hunit
  rw [hsome, hcls]

theorem body_classToDevice (s : Stages b m) (hu : u ∈ m.classes) {r : Device.Routines}
    (hr : u.routines = some r) :
    r.classToDevice.body = .generated (Device.classToDeviceCode u.cls) := by
  obtain ⟨_, -, hunit⟩ := s.exists_unitOf hu
  obtain ⟨hcls, -, -, -, -, -, hroutines⟩ := unitOf_ok hunit
  rw [classToDevice_eq (hroutines r hr), ← hcls]
  rfl

theorem lines_classToDevice (s : Stages b m) (hu : u ∈ m.classes) {r : Device.Routines}
    (hr : u.routines = some r) :
    r.classToDevice.lines = Code.allLines (Device.classToDeviceCode u.cls) := by
  rw [FunctionDef.lines, body_classToDevice s hu hr]

/-- A class with device copies has the routine that copies its class object, and the source defines
it. -/
theorem exists_classToDevice (s : Stages b m) (hu : u ∈ m.classes)
    (hco : u.cls.coprocessor = true) : ∃ r, u.routines = some r ∧
      .function r.classToDevice ∈ source m ∧ r.classToDevice.name = u.name ++ "Class_cudafy" := by
  obtain ⟨-, hcopy, -⟩ := generated_names s hu
  obtain ⟨r, hr⟩ := Option.isSome_iff_exists.1 ((isSome_routines s hu).trans hco)
  refine ⟨r, hr, mem_source_of_mem_items hu (List.mem_append_right _ ?_), ?_⟩
  · refine List.mem_flatMap.2
      ⟨r, Option.mem_toList.2 hr, List.mem_flatMap.2 ⟨r.classToDevice, ?_, ?_⟩⟩
    · exact List.mem_append_right _ (List.mem_singleton_self _)
    · exact List.mem_cons_self
  · rw [hcopy r hr, Name.classToDevice_of_ne (name_ne_rootObject s hu)]

end Build

/-- In a module that builds, the routine that copies the class object of a class with device copies
starts from a copy of the host's, and where that is to be written anew it puts a device pointer into
the slot of each entry that the author of the class implements. All other slots of the table hold
what they hold on the host, and no line stores into them. So all that any author of the chain
implements is patched just if the class itself implements all of that. -/
theorem classToDevice_patches {b : Builder} {m : Module} {u : ClassUnit} (hb : b.Made)
    (hbuild : b.build = .ok m) (hu : u ∈ m.classes) (hco : u.cls.coprocessor = true) :
    ∃ r, u.routines = some r ∧ .function r.classToDevice ∈ source m ∧
      r.classToDevice.name = u.name ++ "Class_cudafy" ∧
      r.classToDevice.body = .generated (copyBody u.cls (renewal u.cls)) ∧
      (∀ e ∈ u.cls.methods,
        ((∃ i, e.implementation = some i ∧ i.isUsers = true ∧ i.providedBy = u.name) →
          ∀ copy, CopyStep.run (.start :: renewal u.cls) copy e.slot
            = .function (u.name ++ "_" ++ e.name ++ "_devp")) ∧
        ((¬ ∃ i, e.implementation = some i ∧ i.isUsers = true ∧ i.providedBy = u.name) →
          (∀ copy, CopyStep.run (.start :: renewal u.cls) copy e.slot = .asOnHost) ∧
          ∀ tag, storeLine tag e.slot ∉ r.classToDevice.lines)) ∧
      ((∀ e ∈ u.cls.methods, ∀ i, e.implementation = some i → i.isUsers = true →
          ∀ copy, ∃ symbol,
            CopyStep.run (.start :: renewal u.cls) copy e.slot = .function symbol) ↔
        ∀ e ∈ u.cls.methods, ∀ i, e.implementation = some i → i.isUsers = true →
          i.providedBy = u.name) := by
  obtain ⟨s⟩ := build_ok hbuild
  obtain ⟨havailable, hmade⟩ := hb.wellFormed.built hbuild u hu
  obtain ⟨ds, hlin⟩ := havailable.sound.lineage
  obtain ⟨r, hr, hsource, hname⟩ := exists_classToDevice s hu hco
  have hpatched : ∀ e ∈ u.cls.methods,
      (∃ i, e.implementation = some i ∧ i.isUsers = true ∧ i.providedBy = u.name) →
      ∀ copy, CopyStep.run (.start :: renewal u.cls) copy e.slot
        = .function (u.name ++ "_" ++ e.name ++ "_devp") := fun e he hown =>
    run_of_mem_deviceSlots hlin.slots_nodup (mem_deviceSlots_iff.2 ⟨he, hown⟩)
  have hkept : ∀ e ∈ u.cls.methods,
      (¬ ∃ i, e.implementation = some i ∧ i.isUsers = true ∧ i.providedBy = u.name) →
      ∀ copy, CopyStep.run (.start :: renewal u.cls) copy e.slot = .asOnHost := fun e he hother =>
    run_of_notMem_deviceSlots he hlin.slots_nodup fun hslot => hother (mem_deviceSlots_iff.1 hslot).2
  refine ⟨r, hr, hsource, hname, ?_, fun e he =>
    ⟨hpatched e he, fun hother => ⟨hkept e he hother, ?_⟩⟩, ?_, ?_⟩
  · rw [body_classToDevice s hu hr, classToDeviceCode_eq]
  · intro tag hstore
    rw [lines_classToDevice s hu hr] at hstore
    exact hother (mem_deviceSlots_iff.1
      (mem_deviceSlots_of_storeLine_mem hmade he hlin.slots_nodup hstore)).2
  · intro hall e he i himpl husers
    by_contra hprovider
    -- a method has one implementation, and another class provides this one
    have hother : ¬ ∃ i, e.implementation = some i ∧ i.isUsers = true ∧ i.providedBy = u.name := by
      rintro ⟨j, himpl', -, hown⟩
      exact hprovider (Option.some.inj (himpl.symm.trans himpl') ▸ hown)
    obtain ⟨symbol, hsymbol⟩ := hall e he i himpl husers fun _ => .asOnHost
    rw [hkept e he hother] at hsymbol
    cases hsymbol
  · exact fun hown e he i himpl husers copy =>
      ⟨_, hpatched e he ⟨i, himpl, husers, hown e he i himpl husers⟩ copy⟩

namespace Sample

theorem made_action {name : String} {supply : Supply} (h : isIdentifier name = true) :
    (action name supply).signature.Made := by
  have hdeclare : Signature.declare name [Root.self] .void .method
      = .ok (action name supply).signature := by
    unfold Signature.declare checkName
    rw [if_pos h]
    rfl
  exact .declare hdeclare

theorem made_vehicles : vehicles.Made := by
  have hwheel : wheel.Made := by
    simp only [Draft.Made, wheel, List.forall_mem_singleton]
    exact made_action (by decide)
  have hcart : cart.Made := by
    simp only [Draft.Made, cart, List.forall_mem_singleton]
    exact made_action (by decide)
  exact ((Builder.Made.start _).defineClass hwheel).defineClass hcart

end Sample

theorem classToDevice_patches_sample : Sample.vehicles.Made ∧ ∃ m u, Sample.vehicles.build = .ok m ∧
    u ∈ m.classes ∧ u.name = "Cart" ∧ ∃ r, u.routines = some r ∧
      r.classToDevice.name = "CartClass_cudafy" ∧
      r.classToDevice.body = .generated (copyBody u.cls (renewal u.cls)) ∧
      ∃ e ∈ u.cls.methods, e.name = "brake" ∧
        ∀ copy, CopyStep.run (.start :: renewal u.cls) copy e.slot = .function "Cart_brake_devp" := by
  obtain ⟨m, hbuild, u, hu, hname, hco, -, -, ⟨e, he, hename, himpl⟩, -⟩ := Sample.build_vehicles
  obtain ⟨r, hr, -, hrname, hbody, hslots, -⟩ :=
    classToDevice_patches Sample.made_vehicles hbuild hu hco
  have hu' : u.name = "Cart" := hname
  have hpatched := (hslots e he).1 ⟨_, himpl, rfl, hu'.symm⟩
  rw [hu', hename] at hpatched
  exact ⟨Sample.made_vehicles, m, u, hbuild, hu, hu', r, hr, by rw [hrname, hu']; rfl, hbody, e, he,
    hename, hpatched⟩

/-- A class inherits what a class above it with device copies implements, and the routine that
copies its class object leaves the slot as it is on the host. -/
theorem cart_turn_not_patched : Sample.vehicles.Made ∧ ∃ m u, Sample.vehicles.build = .ok m ∧
    u ∈ m.classes ∧ u.cls.coprocessor = true ∧
    (∃ a ∈ u.cls.chain, a.name = "Wheel" ∧ a.coprocessor = true) ∧
    ∃ e ∈ u.cls.methods, e.implementation = some ⟨"wheel_turn", "Wheel", .external⟩ ∧
      ∃ r, u.routines = some r ∧
        r.classToDevice.body = .generated (copyBody u.cls (renewal u.cls)) ∧
        ∀ copy, CopyStep.run (.start :: renewal u.cls) copy e.slot = .asOnHost := by
  obtain ⟨m, hbuild, u, hu, hname, hco, habove, ⟨e, he, -, himpl⟩, -⟩ := Sample.build_vehicles
  obtain ⟨s⟩ := build_ok hbuild
  obtain ⟨r, hr, -⟩ := exists_classToDevice s hu hco
  obtain ⟨havailable, -⟩ := Sample.made_vehicles.wellFormed.built hbuild u hu
  obtain ⟨ds, hlin⟩ := havailable.sound.lineage
  -- `Wheel` provides the implementation that `Cart` inherits
  have hother : e ∉ u.cls.deviceSlots := by
    intro hslot
    obtain ⟨-, i, himpl', -, hprovider⟩ := mem_deviceSlots_iff.1 hslot
    rw [← Option.some.inj (himpl.symm.trans himpl'), hname] at hprovider
    exact absurd hprovider (by decide)
  refine ⟨Sample.made_vehicles, m, u, hbuild, hu, hco, habove, e, he, himpl, r, hr, ?_,
    run_of_notMem_deviceSlots he hlin.slots_nodup hother⟩
  rw [body_classToDevice s hu hr, classToDeviceCode_eq]

end Module

end ClassForge

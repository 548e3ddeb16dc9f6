import ClassForge.Proofs.Module.DeviceTable
import ClassForge.Proofs.Module.Files

/-!
# Device headers and what uses them

The device header of a module declares two kinds of symbols: device pointers, which the routines
that copy class objects read, and handles, which the source defines and the init routines publish.
Header, source and routines each go through the classes on their own; they come to the same symbols.
-/

namespace ClassForge

open C

namespace Output

open ClassForge.Class

/-! ## Symbols of the files -/

theorem mem_foldl_declare {earlier declared group : List DeviceVariable} {v : DeviceVariable} :
    v ∈ group.foldl (fun l v => if v ∈ earlier ∨ v ∈ l then l else l ++ [v]) declared ↔
      v ∈ declared ∨ v ∈ group ∧ v ∉ earlier := by
  induction group generalizing declared with
  | nil => simp
  | cons w ws ih =>
    rw [List.foldl_cons, ih, List.mem_cons]
    -- `w` is passed over if it was declared before, in this group or an earlier one
    by_cases hw : w ∈ earlier ∨ w ∈ declared
    · rw [if_pos hw]
      by_cases heq : v = w
      · subst heq
        tauto
      · tauto
    · rw [if_neg hw, List.mem_append, List.mem_singleton]
      by_cases heq : v = w
      · subst heq
        tauto
      · tauto

/-- Each variable of the groups is declared in some place, and nothing else is. -/
theorem mem_declareOnce {earlier : List DeviceVariable} {groups : List (List DeviceVariable)}
    {v : DeviceVariable} :
    v ∈ (declareOnce earlier groups).flatten ↔ v ∉ earlier ∧ v ∈ groups.flatten := by
  induction groups generalizing earlier with
  | nil => simp [declareOnce]
  | cons g gs ih =>
    simp only [declareOnce, List.flatten_cons, List.mem_append, ih, mem_foldl_declare,
      List.not_mem_nil, false_or]
    tauto

theorem externDevice_mem_deviceHeader {m : Module} {v : DeviceVariable} :
    .externDevice v ∈ deviceHeader m ↔
      ∃ u ∈ m.classes, u.cls.coprocessor = true ∧ v ∈ handles u.cls ++ devicePointers u.cls := by
  have hgroups : .externDevice v ∈ deviceHeader m ↔
      v ∈ (declareOnce []
        (m.deviceClasses.map fun u => handles u.cls ++ devicePointers u.cls)).flatten := by
    simp [deviceHeader]
  rw [hgroups, mem_declareOnce]
  simp [Module.deviceClasses, and_assoc]

theorem isConstant_of_mem_handles {c : Class} {v : DeviceVariable} (h : v ∈ handles c) :
    v.isConstant = true := by
  simp only [handles, List.mem_cons, List.not_mem_nil, or_false] at h
  rcases h with rfl | rfl <;> rfl

theorem isConstant_of_mem_devicePointers {c : Class} {v : DeviceVariable}
    (h : v ∈ devicePointers c) : v.isConstant = false := by
  obtain ⟨e, -, rfl⟩ := List.mem_map.1 h
  rfl

/-- The constants among the symbols are the handles. -/
theorem handle_mem_deviceHeader {m : Module} {v : DeviceVariable} (h : v.isConstant = true) :
    .externDevice v ∈ deviceHeader m ↔
      ∃ u ∈ m.classes, u.cls.coprocessor = true ∧ v ∈ handles u.cls := by
  have hpointer : ∀ c, v ∉ devicePointers c := fun c hv =>
    Bool.false_ne_true ((isConstant_of_mem_devicePointers hv).symm.trans h)
  simp [externDevice_mem_deviceHeader, hpointer]

/-- The symbols that are not constant are the device pointers. -/
theorem devicePointer_mem_deviceHeader {m : Module} {v : DeviceVariable} (h : v.isConstant = false) :
    .externDevice v ∈ deviceHeader m ↔
      ∃ u ∈ m.classes, u.cls.coprocessor = true ∧ v ∈ devicePointers u.cls := by
  have hhandle : ∀ c, v ∉ handles c := fun c hv =>
    Bool.false_ne_true (h.symm.trans (isConstant_of_mem_handles hv))
  simp [externDevice_mem_deviceHeader, hhandle]

/-- What a source includes of its own module: the header, and the device header where there is
device code. -/
theorem includeLocal_mem_source {m : Module} {header : String} :
    .includeLocal header ∈ source m ↔
      header = m.name ++ ".h" ∨ m.hasDeviceCode = true ∧ header = m.name ++ ".cuh" := by
  have hsection : ∀ u, .includeLocal header ∉ classSection u :=
    not_mem_classSection rfl (by simp) (by simp)
  have hchecks : .includeLocal header ∉ checkItems := by simp [checkItems]
  simp [source, preludeItems, globalItems, functionItems, hsection, hchecks]

theorem device_mem_source {m : Module} {v : DeviceVariable} :
    .device v ∈ source m ↔ m.hasDeviceCode = true ∧
      ∃ u ∈ m.classes, u.cls.coprocessor = true ∧ v ∈ handles u.cls := by
  have hsection : ∀ u, .device v ∉ classSection u :=
    not_mem_classSection rfl (by simp) (by simp)
  have hchecks : .device v ∉ checkItems := by simp [checkItems]
  simp [source, preludeItems, globalItems, functionItems, hsection, hchecks, Module.deviceClasses,
    and_assoc]

end Output

namespace Module

open ClassForge.Class Output

/-! ## Device pointers that are read -/

theorem toList_readLine (slot symbol : String) : (readLine slot symbol).toList
    = "cudaMemcpyFromSymbol((void**) &".toList
      ++ (slot.toList ++ ',' :: (" (const void*) &".toList ++ symbol.toList))
      ++ ", sizeof(void*), 0, cudaMemcpyDeviceToHost)".toList := by
  have hcomma : ", (const void*) &".toList = ',' :: " (const void*) &".toList := by decide
  unfold readLine
  simp only [String.toList_append, List.append_assoc, hcomma, List.cons_append]

theorem getLast?_readLine (slot symbol : String) :
    (readLine slot symbol).toList.getLast? = some ')' := by
  rw [toList_readLine, List.getLast?_append]
  rfl

/-- Only one comma stands between the names that a line reads, if they have none of their own. -/
theorem readLine_inj {slot slot' symbol symbol' : String} (hslot : ',' ∉ slot.toList)
    (hsymbol : ',' ∉ symbol.toList) (h : readLine slot symbol = readLine slot' symbol') :
    slot = slot' ∧ symbol = symbol' := by
  have hlists := congrArg String.toList h
  rw [toList_readLine, toList_readLine, List.append_cancel_right_eq, List.append_cancel_left_eq]
    at hlists
  obtain ⟨hslots, -, hsymbols⟩ :=
    (List.append_cons_inj_of_notMem hslot (by simpa using hsymbol)).1 hlists
  rw [List.append_cancel_left_eq] at hsymbols
  exact ⟨String.toList_inj.1 hslots, String.toList_inj.1 hsymbols⟩

section Made

variable {c : Class}

theorem comma_notMem_devicePointer (hname : isIdentifier c.name = true) (hc : c.Made) {e : Method}
    (he : e ∈ c.methods) : ',' ∉ (Name.devicePointer c.name e.name).toList := by
  have hcls := notMem_of_isIdentifier hname (c := ',') (by decide)
  have hmethod := notMem_of_isIdentifier (hc e he).isIdentifier (c := ',') (by decide)
  simpa [Name.devicePointer, Method.name, not_or] using And.intro hcls hmethod

/-- The routine that copies a class object reads no device pointers but those of the entries that
the author of the class implements. -/
theorem exists_of_readLine_mem (hname : isIdentifier c.name = true) (hc : c.Made)
    {slot symbol : String} (h : readLine slot symbol ∈ Code.allLines (Device.classToDeviceCode c)) :
    ∃ e ∈ c.deviceSlots, e.slot = slot ∧ Name.devicePointer c.name e.name = symbol := by
  have hlast := getLast?_readLine slot symbol
  have hhead := head?_readLine slot symbol
  -- of the lines of the routine only those that read a slot begin and end like this one
  rcases mem_lines_classToDeviceCode.1 h with hframe | ⟨e, he, hl⟩
  · rcases (ends_of_mem_frameLines hframe).2 with hl | hl
    · rw [hl] at hhead
      exact absurd hhead (by decide)
    · rw [hl] at hlast
      exact absurd hlast (by decide)
  · have hmem : e ∈ c.methods := (mem_deviceSlots_iff.1 he).1
    simp only [patchLines, List.mem_cons, List.not_mem_nil, or_false] at hl
    rcases hl with hl | hl | hl | hl | hl
    · exact absurd hl (Name.ne_of_getLast? (by simp [hlast, List.getLast?_cons]))
    · exact absurd hl (Name.ne_of_getLast? (by simp [hlast]))
    · exact ⟨e, he, readLine_inj (notMem_slot hc hmem (by decide))
        (comma_notMem_devicePointer hname hc hmem) hl.symm⟩
    · exact absurd hl (Name.ne_of_getLast? (by simp [hlast]))
    · exact absurd hl (Name.ne_of_head? (by simp [hhead, head?_storeLine]))

end Made
/-! ## Handles that are published -/

/-- The line that publishes the device copy of a class object. -/
def publishLine (handle : String) : String :=
  "cudaMemcpyToSymbol((const void*) &" ++ handle
    ++ ", &device_class, sizeof(void*), 0, cudaMemcpyHostToDevice)"

theorem toList_publishLine (handle : String) : (publishLine handle).toList
    = "cudaMemcpyToSymbol((const void*) &".toList
      ++ (handle.toList ++ ", &device_class, sizeof(void*), 0, cudaMemcpyHostToDevice)".toList) := by
  unfold publishLine
  simp only [String.toList_append, List.append_assoc]

theorem ends_publishLine (handle : String) :
    (publishLine handle).toList.head? = some 'c' ∧
      (publishLine handle).toList.getLast? = some ')' := by
  rw [toList_publishLine, List.getLast?_append, List.getLast?_append]
  exact ⟨rfl, rfl⟩

theorem publishLine_inj {handle handle' : String} :
    publishLine handle = publishLine handle' ↔ handle = handle' := by
  unfold publishLine
  rw [String.append_left_inj, String.append_right_inj]

/-- The lines that create a class object. -/
def createLines (n : Creation) : List String :=
  ["if (!" ++ n.object ++ ")", n.object ++ " =", "myriad_new(", n.metaclass ++ ",",
    n.superclass ++ ",", "sizeof(struct " ++ n.object ++ "),"]
    ++ n.pairs.map (fun p => p.1 ++ ", " ++ p.2 ++ ",") ++ ["0", ");"]

/-- The lines that publish its device copy. -/
def publishLines (object handle : String) : List String :=
  let pointer := "struct " ++ Name.rootMetaclass ++ "*"
  ["if (init_cuda)", "void* device_class = myriad_cudafy((void*) " ++ object ++ ", 1);",
    "((" ++ pointer ++ ") " ++ object ++ ")->device_class = (" ++ pointer ++ ") device_class;",
    "CUDA_CHECK_RETURN(", publishLine handle, ");"]

theorem allLines_publishCode (object handle : String) :
    Code.allLines (publishCode object handle) = publishLines object handle := rfl

theorem allLines_creation (n : Creation) :
    Code.allLines n.code = createLines n ++ n.handle.toList.flatMap (publishLines n.object) := by
  have hpairs : Code.allLines (n.pairs.map fun p => .line (p.1 ++ ", " ++ p.2 ++ ","))
      = n.pairs.map fun p => p.1 ++ ", " ++ p.2 ++ "," := by
    rw [List.map_eq_flatMap, Code.allLines_flatMap, List.map_eq_flatMap]
    rfl
  cases hhandle : n.handle <;>
    simp [Creation.code, hhandle, Code.allLines, Code.lines, Code.allLines_append, hpairs,
      createLines, allLines_publishCode]

/-- What creates a class object publishes it under its handle, and publishes nothing else. -/
theorem publishLine_mem_creation {n : Creation} {handle : String} :
    publishLine handle ∈ Code.allLines n.code ↔ n.handle = some handle := by
  -- the line opens with a `c` and ends in a parenthesis, and no other line does both
  obtain ⟨hhead, hlast⟩ := ends_publishLine handle
  have hcreate : publishLine handle ∉ createLines n := by
    simp only [createLines, List.mem_append, List.mem_map, List.mem_cons, List.not_mem_nil, or_false,
      not_or, not_exists, not_and]
    refine ⟨⟨⟨?_, ?_, ?_, ?_, ?_, ?_⟩, fun p _ => Ne.symm ?_⟩, ?_, ?_⟩
    · exact Name.ne_of_head? (by simp [hhead])
    all_goals exact Name.ne_of_getLast? (by simp [hlast, List.getLast?_cons])
  have hpublish : ∀ handle',
      publishLine handle ∈ publishLines n.object handle' ↔ handle' = handle := by
    intro handle'
    simp only [publishLines, List.mem_cons, List.not_mem_nil, or_false, publishLine_inj]
    refine ⟨?_, by rintro rfl; simp⟩
    rintro (h | h | h | h | h | h)
    on_goal 5 => exact h.symm
    all_goals exact absurd h (Name.ne_of_head? (by simp [hhead]))
  simp [allLines_creation, hcreate, hpublish]

theorem publishLine_mem_initRoutine {c : Class} {handle : String} :
    publishLine handle ∈ (initRoutine c).lines ↔
      c.coprocessor = true ∧ ∃ v ∈ handles c, v.name = handle := by
  obtain ⟨hhead, -⟩ := ends_publishLine handle
  have hsuper : publishLine handle ∉ Code.allLines (if c.superclassName = Name.rootObject then []
      else [.line (Name.init c.superclassName ++ "(init_cuda);"), .blank]) := by
    split
    · exact List.not_mem_nil
    · simpa [Code.allLines, Code.lines] using
        Name.ne_of_head? (by simp [hhead, Name.init])
  have hlines : (initRoutine c).lines = Code.allLines (initCode c) := rfl
  simp only [hlines, initCode, Code.allLines_append, List.mem_append, hsuper,
    publishLine_mem_creation, false_or]
  cases hco : c.coprocessor <;>
    simp [metaclassCreation, classCreation, hco, handles, Code.allLines, Code.lines]

/-! ## Agreement -/

section Build

variable {b : Builder} {m : Module}

theorem isIdentifier_name {u : ClassUnit} (s : Stages b m)
    (himports : ∀ c ∈ b.imports, c.Sound) (hu : u ∈ m.classes) : isIdentifier u.cls.name = true := by
  obtain ⟨d, -, above, base, r, horigin, hunit⟩ := s.exists_origin himports hu
  rw [(unitOf_ok hunit).1, horigin.derives.name]
  exact StructType.isIdentifier_of_layOut horigin.derives.object

/-- A class with device copies makes its module one with device code. -/
theorem hasDeviceCode_of_mem (s : Stages b m) (himports : ∀ c ∈ b.imports, c.Sound) {u : ClassUnit}
    (hu : u ∈ m.classes) (hco : u.cls.coprocessor = true) : m.hasDeviceCode = true := by
  obtain ⟨d, hd, above, base, r, horigin, hunit⟩ := s.exists_origin himports hu
  have hdraft : d.coprocessor = true := by
    rw [← horigin.derives.coprocessor, ← (unitOf_ok hunit).1, hco]
  have hconfig : m.config.coprocessor = true :=
    s.config ▸ Builder.checkCoprocessor_eq_ok.1 s.coprocessor d hd hdraft
  have hne : m.deviceClasses ≠ [] :=
    List.ne_nil_of_mem (List.mem_filter.2 ⟨hu, hco⟩)
  simp [hasDeviceCode, hconfig, hne]

theorem init_mem_source {u : ClassUnit} (hu : u ∈ m.classes) : .function u.init ∈ source m := by
  have hsection : .function u.init ∈ classSection u := by
    rw [classSection_eq]
    exact List.mem_append_right _ List.mem_cons_self
  exact List.mem_append_right _ (List.mem_flatMap.2 ⟨u, hu, hsection⟩)

/-- The source includes the device header just if it is there. -/
theorem includeLocal_deviceHeader_iff :
    .includeLocal (m.name ++ ".cuh") ∈ source m ↔ m.hasDeviceCode = true := by
  have hother : m.name ++ ".cuh" ≠ m.name ++ ".h" := by
    rw [ne_eq, String.append_right_inj]
    decide
  rw [includeLocal_mem_source, or_iff_right hother, and_iff_left rfl]

/-- Each device pointer that is declared is one that a routine reads, for a slot of its type. -/
theorem exists_read_of_declared (s : Stages b m) {v : DeviceVariable}
    (hv : .externDevice v ∈ deviceHeader m) (hpointer : v.isConstant = false) :
    ∃ u ∈ m.classes, ∃ r, u.routines = some r ∧ .function r.classToDevice ∈ source m ∧
      ∃ e ∈ u.cls.methods, v.type = e.typedef ∧ readLine e.slot v.name ∈ r.classToDevice.lines := by
  obtain ⟨u, hu, hco, hv⟩ := (devicePointer_mem_deviceHeader hpointer).1 hv
  obtain ⟨r, hr, hsource, -⟩ := exists_classToDevice s hu hco
  obtain ⟨e, he, rfl⟩ := List.mem_map.1 hv
  refine ⟨u, hu, r, hr, hsource, e, (mem_deviceSlots_iff.1 he).1, rfl, ?_⟩
  rw [lines_classToDevice s hu hr]
  exact mem_lines_classToDeviceCode.2 (.inr ⟨e, he, by simp [patchLines]⟩)

/-- Each device pointer that a routine reads is declared, with the type of the slot that it is read
for. -/
theorem exists_declared_of_read (s : Stages b m) (hb : b.WellFormed) {u : ClassUnit}
    (hu : u ∈ m.classes) {r : Device.Routines} (hr : u.routines = some r) {slot symbol : String}
    (hread : readLine slot symbol ∈ r.classToDevice.lines) : ∃ e ∈ u.cls.methods, e.slot = slot ∧
      .externDevice { isConstant := false, type := e.typedef, name := symbol } ∈ deviceHeader m := by
  have hco : u.cls.coprocessor = true := by
    rw [← isSome_routines s hu, hr, Option.isSome_some]
  rw [lines_classToDevice s hu hr] at hread
  obtain ⟨e, he, hslot, hsymbol⟩ := exists_of_readLine_mem (isIdentifier_name s hb.sound hu)
    (hb.built s.build u hu).2 hread
  refine ⟨e, (mem_deviceSlots_iff.1 he).1, hslot, ?_⟩
  exact (devicePointer_mem_deviceHeader rfl).2
    ⟨u, hu, hco, List.mem_map.2 ⟨e, he, by rw [hsymbol]⟩⟩

/-- The source defines the handles that are declared. -/
theorem device_mem_source_iff (s : Stages b m) (himports : ∀ c ∈ b.imports, c.Sound)
    {v : DeviceVariable} :
    .device v ∈ source m ↔ v.isConstant = true ∧ .externDevice v ∈ deviceHeader m := by
  rw [device_mem_source]
  constructor
  · rintro ⟨-, u, hu, hco, hv⟩
    have hconstant := isConstant_of_mem_handles hv
    exact ⟨hconstant, (handle_mem_deviceHeader hconstant).2 ⟨u, hu, hco, hv⟩⟩
  · rintro ⟨hconstant, hv⟩
    obtain ⟨u, hu, hco, hv⟩ := (handle_mem_deviceHeader hconstant).1 hv
    exact ⟨hasDeviceCode_of_mem s himports hu hco, u, hu, hco, hv⟩

/-- The init routines publish the handles that are declared. -/
theorem exists_published_iff (s : Stages b m) {handle : String} :
    (∃ v, v.isConstant = true ∧ v.name = handle ∧ .externDevice v ∈ deviceHeader m) ↔
      ∃ u ∈ m.classes, .function u.init ∈ source m ∧ publishLine handle ∈ u.init.lines := by
  constructor
  · rintro ⟨v, hconstant, hname, hv⟩
    obtain ⟨u, hu, hco, hv⟩ := (handle_mem_deviceHeader hconstant).1 hv
    refine ⟨u, hu, init_mem_source hu, ?_⟩
    rw [init_eq s hu, publishLine_mem_initRoutine]
    exact ⟨hco, v, hv, hname⟩
  · rintro ⟨u, hu, -, hline⟩
    rw [init_eq s hu, publishLine_mem_initRoutine] at hline
    obtain ⟨hco, v, hv, hname⟩ := hline
    have hconstant := isConstant_of_mem_handles hv
    exact ⟨v, hconstant, hname, (handle_mem_deviceHeader hconstant).2 ⟨u, hu, hco, hv⟩⟩

end Build

/-- The header with the device symbols agrees with all that uses them. It is a file just if the
source includes it, and like the source it has the text of its items. The device pointers that it
declares are those that the routines copying class objects read, each with the type of the slot; and
the handles are those that the source defines, and those that the init routines publish. -/
theorem deviceHeader_agrees {b : Builder} {m : Module} (hb : b.Made) (hbuild : b.build = .ok m) :
    ((∃ f ∈ filesOf m, f.name = m.name ++ ".cuh") ↔
      .includeLocal (m.name ++ ".cuh") ∈ source m) ∧
    (∀ f ∈ filesOf m, f.name = m.name ++ ".cuh" →
      f.text = String.join ((deviceHeader m).map (·.text))) ∧
    m.Writes (m.name ++ ".c") (source m) ∧
    (∀ v, .externDevice v ∈ deviceHeader m → v.isConstant = false →
      ∃ u ∈ m.classes, ∃ r, u.routines = some r ∧ .function r.classToDevice ∈ source m ∧
        ∃ e ∈ u.cls.methods, v.type = e.typedef ∧ readLine e.slot v.name ∈ r.classToDevice.lines) ∧
    (∀ u ∈ m.classes, ∀ r, u.routines = some r → ∀ slot symbol,
      readLine slot symbol ∈ r.classToDevice.lines → ∃ e ∈ u.cls.methods, e.slot = slot ∧
        .externDevice { isConstant := false, type := e.typedef, name := symbol } ∈ deviceHeader m) ∧
    (∀ v, .device v ∈ source m ↔ v.isConstant = true ∧ .externDevice v ∈ deviceHeader m) ∧
    ∀ handle, (∃ v, v.isConstant = true ∧ v.name = handle ∧ .externDevice v ∈ deviceHeader m) ↔
      ∃ u ∈ m.classes, .function u.init ∈ source m ∧ publishLine handle ∈ u.init.lines := by
  obtain ⟨s⟩ := build_ok hbuild
  have hwf := hb.wellFormed
  have htext : ∀ f ∈ filesOf m, f.name = m.name ++ ".cuh" →
      f.text = String.join ((deviceHeader m).map (·.text)) := by
    intro f hf hname
    exact (s.writes_deviceHeader (s.exists_deviceHeader_iff.1 ⟨f, hf, hname⟩)).text_eq hf hname
  exact ⟨s.exists_deviceHeader_iff.trans includeLocal_deviceHeader_iff.symm, htext,
    s.writes_source, fun v => exists_read_of_declared s,
    fun u hu r hr slot symbol => exists_declared_of_read s hwf hu hr,
    fun v => device_mem_source_iff s hwf.sound, fun handle => exists_published_iff s⟩

theorem deviceHeader_agrees_sample : Sample.vehicles.Made ∧ ∃ m, Sample.vehicles.build = .ok m ∧
    (∃ u ∈ m.classes, ∃ r, u.routines = some r ∧
      ∃ e ∈ u.cls.methods, readLine e.slot "Cart_brake_devp" ∈ r.classToDevice.lines) ∧
    (∃ v, .device v ∈ source m ∧ v.name = "Cart_dev_t") ∧
    ∃ u ∈ m.classes, publishLine "Cart_dev_t" ∈ u.init.lines := by
  obtain ⟨m, hbuild, u, hu, hname, hco, -, -, ⟨e, he, hename, himpl⟩, -⟩ := Sample.build_vehicles
  obtain ⟨-, -, -, hread, -, hdefined, hpublished⟩ := deviceHeader_agrees Sample.made_vehicles hbuild
  have hpointer : .externDevice
      { isConstant := false, type := e.typedef, name := "Cart_brake_devp" } ∈ deviceHeader m := by
    refine (devicePointer_mem_deviceHeader rfl).2 ⟨u, hu, hco, List.mem_map.2 ⟨e, ?_, ?_⟩⟩
    · exact mem_deviceSlots_iff.2 ⟨he, _, himpl, rfl, hname.symm⟩
    · rw [hname, hename]
      rfl
  have hhandle : .externDevice
      { isConstant := true, type := "struct " ++ u.cls.metaclass.name ++ "*", name := "Cart_dev_t" }
        ∈ deviceHeader m := by
    refine (handle_mem_deviceHeader rfl).2 ⟨u, hu, hco, ?_⟩
    rw [handles, hname]
    exact List.mem_cons_of_mem _ List.mem_cons_self
  obtain ⟨u', hu', r, hr, -, e', he', -, hline⟩ := hread _ hpointer rfl
  obtain ⟨u'', hu'', -, hinit⟩ := (hpublished _).1 ⟨_, rfl, rfl, hhandle⟩
  exact ⟨Sample.made_vehicles, m, hbuild, ⟨u', hu', r, hr, e', he', hline⟩,
    ⟨_, (hdefined _).2 ⟨rfl, hhandle⟩, rfl⟩, u'', hu'', hinit⟩

end Module

end ClassForge

import ClassForge.Proofs.Class.Nesting
import ClassForge.Proofs.Device.Expansion

/-!
# Nesting of copy routines

The bodies of the routines that copy objects and class objects are complete code. The two that walk
an expansion put pieces together for each field, and write the object and its copy into expressions
that grow with the depth of the embedded objects.
-/

namespace ClassForge.Device

open C C.Code ClassForge.Class

/-! ### Fields -/

variable {f : Field} {host copy device place : String}

/-- The names of a field and of the struct that declares it are identifiers. -/
structure Field.WellNamed (f : Field) : Prop where
  name : isIdentifier f.name = true
  owner : isIdentifier f.owner = true

theorem neutral_member (hf : f.WellNamed) (hhost : Neutral host) : Neutral (member host f) := by
  refine .of_zero ?_
  simp [member, openBehind?, hhost.behind, (Neutral.of_isIdentifier hf.name).behind,
    (Neutral.of_isIdentifier hf.owner).behind]

theorem neutral_address (hf : f.WellNamed) (hhost : Neutral host) : Neutral (address host f) :=
  (Neutral.literal rfl).append (neutral_member hf hhost)

theorem complete_nestedToDevice (hf : f.WellNamed) (hhost : Neutral host) (hcopy : Neutral copy)
    (hplace : Neutral place) : Complete (nestedToDevice host copy place f) := by
  have hname := Neutral.of_isIdentifier hf.name
  have hmember := neutral_member hf hhost
  have haddress := neutral_address hf hcopy
  refine .blank (.line (.of_zero ?_) (.block (.line (.of_zero ?_) (.line (.of_zero ?_) .nil)) .nil))
  · simp [openBehind?, hmember.behind]
  · simp [openBehind?, hmember.behind, hplace.behind, hname.behind]
  · simp [openBehind?, haddress.behind, hplace.behind, hname.behind]

theorem complete_embeddedToDevice (hf : f.WellNamed) (hhost : Neutral host) (hcopy : Neutral copy) :
    Complete (embeddedToDevice host copy f) := by
  have hsource := neutral_address hf hhost
  have htarget := neutral_address hf hcopy
  refine .blank (.block (.line (.of_zero ?_) (.line (.of_zero ?_) .nil)) .nil)
  · simp [openBehind?, hsource.behind, classPointer, Name.rootMetaclass, Name.rootObject]
  · simp [openBehind?, htarget.behind, Name.rootObject]

namespace Catalog

variable {cat : Catalog} {keep : Field → Bool} {fs : List Field} {es : List Expanded}

/-- The names in all object structs of a catalog are identifiers. -/
def WellNamed (cat : Catalog) : Prop :=
  ∀ cls s, cat.layout? cls = some s → s.WellNamed

theorem wellNamed_of_mem_plan {s : StructType} (hs : s.WellNamed) :
    ∀ f ∈ (cat.plan s).fields, f.WellNamed := by
  intro f hf
  obtain ⟨t, ht, hf⟩ := List.mem_flatMap.1 hf
  obtain ⟨v, hv, rfl⟩ := List.mem_map.1 hf
  obtain ⟨hname, hfields⟩ := hs t (List.mem_reverse.1 ht)
  exact ⟨hfields v (List.mem_filter.1 hv).1, hname⟩

/-- At every depth the object and its copy are expressions of their own. -/
theorem Expands.complete_allToDevice (h : cat.Expands keep fs es) (hcat : cat.WellNamed)
    (hfs : ∀ f ∈ fs, f.WellNamed) (hhost : Neutral host) (hcopy : Neutral copy)
    (hplace : Neutral place) : Complete (Expanded.allToDevice host copy place es) := by
  -- the texts of the places grow on the way down, and stay neutral
  induction h generalizing host copy place with
  | nil => exact .nil
  | dropped _ _ ih => exact ih (List.forall_mem_cons.1 hfs).2 hhost hcopy hplace
  | leaf _ _ _ ih =>
    obtain ⟨hf, hfs⟩ := List.forall_mem_cons.1 hfs
    rw [Expanded.allToDevice, Expanded.toDevice]
    refine .append ?_ (ih hfs hhost hcopy hplace)
    split
    · exact complete_nestedToDevice hf hhost hcopy hplace
    · exact .nil
  | embedded _ _ hs _ _ ih ih' =>
    obtain ⟨hf, hfs⟩ := List.forall_mem_cons.1 hfs
    rw [Expanded.allToDevice, Expanded.toDevice]
    refine .append (.append (complete_embeddedToDevice hf hhost hcopy) ?_)
      (ih' hfs hhost hcopy hplace)
    exact ih (wellNamed_of_mem_plan (hcat _ _ hs)) (neutral_address hf hhost)
      (neutral_address hf hcopy) ((hplace.append (.of_isIdentifier hf.name)).append (.literal rfl))

theorem Expands.complete_allFromDevice (h : cat.Expands keep fs es) (hcat : cat.WellNamed)
    (hfs : ∀ f ∈ fs, f.WellNamed) (hhost : Neutral host) (hdevice : Neutral device) :
    Complete (Expanded.allFromDevice host device es) := by
  induction h generalizing host device with
  | nil => exact .nil
  | dropped _ _ ih => exact ih (List.forall_mem_cons.1 hfs).2 hhost hdevice
  | leaf _ _ _ ih =>
    obtain ⟨hf, hfs⟩ := List.forall_mem_cons.1 hfs
    have hhere := neutral_member hf hhost
    have hthere := neutral_member hf hdevice
    have hhereAddress := neutral_address hf hhost
    have hthereAddress := neutral_address hf hdevice
    rw [Expanded.allFromDevice, Expanded.fromDevice]
    refine .append ?_ (ih hfs hhost hdevice)
    split
    · refine .line (.of_zero ?_) .nil
      simp [openBehind?, hhere.behind, hhereAddress.behind, hthereAddress.behind]
    · refine .line (.of_zero ?_) (.block (.line (.of_zero ?_) .nil) .nil)
      · simp [openBehind?, hhere.behind, hthere.behind]
      · simp [openBehind?, hhere.behind, hthere.behind]
    · exact .nil
  | embedded _ _ hs _ _ ih ih' =>
    obtain ⟨hf, hfs⟩ := List.forall_mem_cons.1 hfs
    rw [Expanded.allFromDevice, Expanded.fromDevice]
    refine .append ?_ (ih' hfs hhost hdevice)
    exact ih (wellNamed_of_mem_plan (hcat _ _ hs)) (neutral_address hf hhost)
      (neutral_address hf hdevice)

end Catalog

/-! ### Routines -/

variable {object : String} {es : List Expanded}

theorem complete_toDeviceCode (hobject : isIdentifier object = true)
    (hes : Complete (Expanded.allToDevice "self" "self_copy" "" es)) :
    Complete (toDeviceCode object es) := by
  have hobject := Neutral.of_isIdentifier hobject
  refine .ifDefined (.literal rfl) (.append (.append ?begin hes) ?finish)
    (.line (.literal rfl) .nil) .nil
  case begin =>
    refine .line (.literal (by decide +kernel)) <| .line (.literal rfl) <|
      .block (.line (.literal rfl) .nil) <| .blank <| .line (.literal rfl) <|
      .line (.literal (by decide +kernel)) <|
      .line (.literal rfl) <| .blank <| .line (.of_zero ?_) <| .line (.of_zero ?_) <|
      .line (.literal rfl) <| .line (.literal rfl) <| .blank <| .line (.of_zero ?_) <|
      .line (.of_zero ?_) .nil
    · simp [openBehind?, hobject.behind]
    · simp [openBehind?, hobject.behind]
    · simp [openBehind?, classPointer, Name.rootMetaclass]
    · simp [openBehind?, Name.rootObject]
  case finish =>
    exact .blank <| .line (.literal (by decide +kernel)) <| .line (.literal rfl) <|
      .line (.literal rfl) .nil

theorem complete_fromDeviceCode (hobject : isIdentifier object = true)
    (hes : Complete (Expanded.allFromDevice "self" "from_device" es)) :
    Complete (fromDeviceCode object es) := by
  have hobject := Neutral.of_isIdentifier hobject
  refine .whenDefined (.literal rfl) (.append (.append ?begin hes) (.line (.literal rfl) .nil))
    (.line (.literal rfl) .nil)
  refine .line (.literal rfl) <| .line (.of_zero ?_) <| .line (.of_zero ?_) <|
    .line (.literal rfl) <| .line (.literal (by decide +kernel)) .nil
  · simp [openBehind?, hobject.behind]
  · simp [openBehind?, hobject.behind]

theorem complete_slotToDevice {cls : String} {m : Method} (hcls : isIdentifier cls = true)
    (hm : m.WellNamed) : Complete (slotToDevice cls m) := by
  have htypedef : Neutral m.typedef :=
    .of_isIdentifier (isIdentifier_typedef hm.introducedBy hm.name)
  have hslot : Neutral m.slot := EntryPoints.neutral_slot hm.name
  have hpointer : Neutral (Name.devicePointer cls m.name) :=
    .of_isIdentifier (isIdentifier_append (isIdentifier_implementation hcls hm.name) (by decide))
  have hmetaclass := Neutral.of_isIdentifier (isIdentifier_metaclass hm.introducedBy)
  have hchecked : Neutral "CUDA_CHECK_RETURN" := .literal rfl
  refine .line (.of_zero ?_) <| .call hchecked (.line (.of_zero ?_) .nil) <| .line (.of_zero ?_) .nil
  · simp [openBehind?, htypedef.behind, hslot.behind]
  · simp [openBehind?, hslot.behind, hpointer.behind]
  · simp [openBehind?, hmetaclass.behind, hslot.behind]

theorem complete_classToDeviceCode {c : Class} (hc : c.WellNamed) :
    Complete (classToDeviceCode c) := by
  have hmetaclass := Neutral.of_isIdentifier hc.metaclass
  have hsuperclass := Neutral.of_isIdentifier hc.superclass
  have hsuper := Neutral.of_isIdentifier (isIdentifier_metaclass hc.superclass)
  have hslots : Complete (c.deviceSlots.flatMap (slotToDevice c.name)) := by
    refine .flatMap fun m hm => complete_slotToDevice hc.name (hc.methods m ?_)
    exact (List.mem_filter.1 (List.mem_filter.1 hm).1).1
  refine .ifDefined (.literal rfl) ?_ (.line (.literal rfl) .nil) .nil
  refine .line (.of_zero ?_) <| .line (.of_zero ?_) <| .line (.of_zero ?_) <| .blank <|
    .line (.literal rfl) <| .block (hslots.append <| .line (.of_zero ?_) <|
      .line (.literal (by decide +kernel)) .nil) <| .blank <| .line (.of_zero ?_) .nil
  · simp [openBehind?, hmetaclass.behind]
  · simp [openBehind?, hmetaclass.behind]
  · simp [openBehind?, Name.rootMetaclass]
  · simp [openBehind?, classPointer, Name.rootMetaclass, hsuperclass.behind]
  · simp [openBehind?, hsuper.behind]

end ClassForge.Device

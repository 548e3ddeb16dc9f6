import ClassForge.Proofs.Class.Lineage
import ClassForge.Proofs.Device.Image
import ClassForge.Proofs.Device.MendAction
import ClassForge.Proofs.Device.SyncAction

/-!
# Arrays in plans

How a field crosses is read off the type behind its pointer levels, and an array is such a type,
whatever it holds. So an array crosses byte by byte and counts as no pointer, also where its
elements are pointers or objects of classes with device copies: a copy keeps the class pointers of
these objects, and what comes back replaces the host's pointers.
-/

namespace ClassForge

open C ClassForge.Class

/-- The variable is an array of elements of a type. There are no pointers to arrays. -/
def C.Variable.IsArrayOf (v : Variable) (element : CType) : Prop :=
  v.pointer = false ∧ ∃ length, v.type = .array element length

namespace Device

/-! ## The kind of an array -/

namespace Catalog

/-- The way that a variable crosses heeds what it holds if it is an array: where the elements are
pointers it does not cross as bytes that are no pointer, and where they are objects of a class with
device copies it does not cross byte by byte. -/
structure HeedsElements (cat : Catalog) (v : Variable) : Prop where
  pointers : ∀ element, v.IsArrayOf element → 0 < element.depth → cat.kind v ≠ .plain false
  objects : ∀ cls, v.IsArrayOf (.struct cls) → cat.isEnabled cls = true →
    ∀ pointer, cat.kind v ≠ .plain pointer

theorem kind_of_isArrayOf (cat : Catalog) {v : Variable} {element : CType}
    (h : v.IsArrayOf element) : cat.kind v = .plain false := by
  obtain ⟨hpointer, length, htype⟩ := h
  simp [kind, TypeUse.base, TypeUse.depth, htype, hpointer, CType.base, CType.structTag?,
    CType.depth]

/-- Elements are heeded just where there is nothing to heed. -/
theorem heedsElements_iff {cat : Catalog} {v : Variable} : cat.HeedsElements v ↔
    ∀ element, v.IsArrayOf element →
      element.depth = 0 ∧ ∀ cls ∈ cat.enabled, element ≠ .struct cls := by
  constructor
  · intro h element harray
    have hkind := cat.kind_of_isArrayOf harray
    refine ⟨Nat.eq_zero_of_not_pos fun hdepth => h.pointers element harray hdepth hkind, ?_⟩
    rintro cls hcls rfl
    exact h.objects cls harray (List.contains_iff_mem.2 hcls) false hkind
  · intro h
    refine ⟨fun element harray hdepth => absurd (h element harray).1 (Nat.ne_of_gt hdepth), ?_⟩
    intro cls harray hcls
    exact absurd rfl ((h _ harray).2 cls (List.contains_iff_mem.1 hcls))

/-- A field that has a place in the plan of a struct has a number there. -/
theorem exists_getElem?_plan (cat : Catalog) {s t : StructType} (ht : t ∈ s.chain) {v : Variable}
    (hv : v ∈ t.fields) (hshown : isHidden t.name v = false) :
    ∃ n : Nat, (cat.plan s).fields[n]? = some
      { name := v.name, owner := t.name, kind := cat.kind v, syncBack := !v.quals.const } := by
  have hown : v ∈ t.fields.filter (!isHidden t.name ·) :=
    List.mem_filter.2 ⟨hv, by rw [hshown]; rfl⟩
  exact List.getElem?_of_mem
    (List.mem_flatMap.2 ⟨t, List.mem_reverse.2 ht, List.mem_map.2 ⟨v, hown, rfl⟩⟩)

end Catalog

/-! ## What is done with a field that crosses byte by byte -/

section

variable {cat : Catalog} {n i : Nat} {f : Field} {fs : List Field}

/-- The actions for the first field come in front of the others. For bytes that come back and are no
pointer the one action is to copy them. -/
theorem Catalog.SyncActions.exists_cons {actions : List SyncAction}
    (h : cat.SyncActions n (f :: fs) actions) :
    ∃ own rest, actions = own ++ rest ∧ cat.SyncActions (n + 1) fs rest ∧
      (f.syncBack = true → f.kind = .plain false → own = [.copy { place := ⟨n, f⟩ }]) := by
  cases h with
  | constant hf htail => exact ⟨[], _, rfl, htail, fun hsync => by simp [hf] at hsync⟩
  | pointer _ hk htail => exact ⟨[], _, rfl, htail, fun _ hplain => by simp [hk] at hplain⟩
  | copy _ _ htail => exact ⟨[_], _, rfl, htail, fun _ _ => rfl⟩
  | descend _ hk htail => exact ⟨[_], _, rfl, htail, fun _ hplain => by simp [hk] at hplain⟩
  | embedded _ hk _ _ htail => exact ⟨_, _, rfl, htail, fun _ hplain => by simp [hk] at hplain⟩

theorem Catalog.SyncActions.copy_mem {actions : List SyncAction}
    (h : cat.SyncActions n fs actions) (hf : fs[i]? = some f) (hsync : f.syncBack = true)
    (hk : f.kind = .plain false) : .copy { place := ⟨n + i, f⟩ } ∈ actions := by
  -- by the fields, down to the one in place `i`
  induction fs generalizing n i actions with
  | nil => cases hf
  | cons g gs ih =>
    obtain ⟨own, rest, rfl, hrest, hown⟩ := h.exists_cons
    cases i with
    | zero =>
      obtain rfl := Option.some.inj hf
      rw [hown hsync hk]
      exact List.mem_append_left _ (List.mem_singleton.2 rfl)
    | succ i =>
      have hmem := ih hrest hf
      rw [Nat.add_right_comm] at hmem
      exact List.mem_append_right _ hmem

/-- The field that an action mends. -/
def MendAction.access : MendAction → Access
  | .repoint a => a
  | .redirect a => a

theorem MendAction.access_within (p : Place) (action : MendAction) :
    (action.within p).access = action.access.within p := by
  cases action <;> rfl

/-- The actions for the first field come in front of the others and mend only what is in it; there
are none if it crosses byte by byte. -/
theorem Catalog.MendActions.exists_cons {actions : List MendAction}
    (h : cat.MendActions n (f :: fs) actions) :
    ∃ own rest, actions = own ++ rest ∧ cat.MendActions (n + 1) fs rest ∧
      (∀ action ∈ own, action.access.indices.head? = some n) ∧
      ∀ pointer, f.kind = .plain pointer → own = [] := by
  cases h with
  | plain hk htail => exact ⟨[], _, rfl, htail, by simp, fun _ _ => rfl⟩
  | redirect hk htail =>
    exact ⟨[_], _, rfl, htail, by simp [MendAction.access, Access.indices], by simp [hk]⟩
  | embedded hk _ _ htail =>
    refine ⟨_ :: _, _, rfl, htail, List.forall_mem_cons.2 ⟨rfl, ?_⟩, by simp [hk]⟩
    intro action haction
    obtain ⟨inner, -, rfl⟩ := List.mem_map.1 haction
    rw [inner.access_within, Access.indices_within, List.head?_cons]

/-- So an action mends what is in a field that does not cross byte by byte. -/
theorem Catalog.MendActions.exists_field {actions : List MendAction}
    (h : cat.MendActions n fs actions) {action : MendAction} (haction : action ∈ actions) :
    ∃ (i : Nat) (g : Field), fs[i]? = some g ∧ action.access.indices.head? = some (n + i) ∧
      ∀ pointer, g.kind ≠ .plain pointer := by
  induction fs generalizing n actions with
  | nil =>
    cases h
    cases haction
  | cons f fs ih =>
    obtain ⟨own, rest, rfl, hrest, hat, hplain⟩ := h.exists_cons
    -- an action belongs to the first field or to a later one
    rcases List.mem_append.1 haction with hown | hlater
    · refine ⟨0, f, rfl, hat action hown, fun pointer hk => ?_⟩
      rw [hplain pointer hk] at hown
      cases hown
    · obtain ⟨i, g, hg, hindex, hkind⟩ := ih hrest hlater
      exact ⟨i + 1, g, hg, by rw [hindex, Nat.add_right_comm]; rfl, hkind⟩

end

section

variable {plan? : String → Option Plan} {handle? : Nat → Option Nat} {i : Nat} {f : Field}

theorem Value.AreMerges.exists_getElem? {fs : List Field} {vs remotes ws : List Value}
    (h : Value.AreMerges plan? fs vs remotes ws) (hf : fs[i]? = some f) :
    ∃ v remote w, vs[i]? = some v ∧ remotes[i]? = some remote ∧ ws[i]? = some w ∧
      v.IsMerge plan? f remote w := by
  induction fs generalizing i vs remotes ws with
  | nil => cases hf
  | cons g gs ih =>
    cases h with
    | cons hhead htail =>
      cases i with
      | zero =>
        obtain rfl := Option.some.inj hf
        exact ⟨_, _, _, rfl, rfl, rfl, hhead⟩
      | succ i =>
        have hrest := ih htail hf
        exact hrest

theorem Value.AreImages.exists_getElem? {fs : List Field} {vs ws : List Value}
    (h : Value.AreImages plan? handle? fs vs ws) (hf : fs[i]? = some f) :
    ∃ v w, vs[i]? = some v ∧ ws[i]? = some w ∧ v.IsImage plan? handle? f.kind w := by
  induction fs generalizing i vs ws with
  | nil => cases hf
  | cons g gs ih =>
    cases h with
    | cons hhead htail =>
      cases i with
      | zero =>
        obtain rfl := Option.some.inj hf
        exact ⟨_, _, rfl, rfl, hhead⟩
      | succ i =>
        have hrest := ih htail hf
        exact hrest

end

/-! ## Arrays -/

namespace Catalog

/-- Field number `n` of the plan of a class's objects is copied as it stands, both ways. -/
structure CopiesWhole (cat : Catalog) (c : Class) (n : Nat) (f : Field) : Prop where
  /-- If it comes back, the generated routine copies its bytes over the host's. -/
  fromDevice : f.syncBack = true → ∀ routines g, cat.routines c = .ok routines →
    routines.fromDevice = some g → ∃ back, g.body = .generated (fromDeviceCode c.name back) ∧
      .line ("memcpy((void*) " ++ address "self" f ++ ", (const void*) " ++ address "from_device" f
        ++ ", sizeof(" ++ member "self" f ++ "));") ∈ Expanded.allFromDevice "self" "from_device" back
  /-- So does the merge of two records. -/
  merge : f.syncBack = true → ∀ (h : Heap) (r remote w : Record) (visits : List Visit),
    h.plan? r.cls = some (cat.plan c.object) → r.merge h remote = .ok (w, visits) →
    w.values[n]? = remote.values[n]?
  /-- On the way to the device the generated routine mends nothing in its bytes. -/
  toDevice : ∀ routines g, cat.routines c = .ok routines → routines.toDevice = some g →
    ∃ all actions, g.body = .generated (toDeviceCode c.name all) ∧
      cat.MendActions 0 (cat.plan c.object).fields actions ∧
      Expanded.allToDevice "self" "self_copy" "" all
        = actions.flatMap (·.code "self" "self_copy" "") ∧
      ∀ action ∈ actions, action.access.indices.head? ≠ some n
  /-- In the image of a record it has the record's own value. -/
  image : ∀ (bound : Nat) (h h' : Heap) (r w : Record), h.plan? r.cls = some (cat.plan c.object) →
    r.image (Heap.copyNested bound) h = (.ok w, h') → w.values[n]? = r.values[n]?

variable {cat : Catalog} {c : Class} {n : Nat} {f : Field}

/-- Bytes that are no pointer are copied as they stand, whatever they are. -/
theorem copiesWhole (hf : (cat.plan c.object).fields[n]? = some f) (hk : f.kind = .plain false) :
    cat.CopiesWhole c n f where
  fromDevice hsync routines g hroutines hg := by
    obtain ⟨back, hback, hbody⟩ := fromDevice_ok ((routines_ok hroutines).2 g hg)
    obtain ⟨actions, hactions, hcode⟩ := (expand_ok hback).exists_syncActions 0
    have hcopy := hactions.copy_mem hf hsync hk
    rw [Nat.zero_add] at hcopy
    refine ⟨back, hbody, ?_⟩
    rw [hcode]
    exact List.mem_flatMap.2 ⟨_, hcopy, List.mem_singleton.2 rfl⟩
  merge hsync h r remote w visits hplan hmerge := by
    obtain ⟨plan, hplan', hmerges⟩ := (Record.merge_ok hmerge).1.values
    obtain rfl := Option.some.inj (hplan.symm.trans hplan')
    obtain ⟨v, remoteValue, merged, -, hremote, hw, hmerged⟩ := hmerges.exists_getElem? hf
    -- of the rules for a merge, only the one for plain values fits the kind
    cases hmerged with
    | plain => rw [hw, hremote]
    | constant hconstant => simp [hsync] at hconstant
    | pointer hother | object hother | embedded _ hother => simp [hk] at hother
  toDevice routines g hroutines hg := by
    obtain ⟨all, hall, hbody⟩ := toDevice_ok ((routines_ok hroutines).1 g hg)
    obtain ⟨actions, hactions, hcode⟩ := (expand_ok hall).exists_mendActions 0
    refine ⟨all, actions, hbody, hactions, hcode _ _ _, fun action haction hindex => ?_⟩
    -- an action on this place would belong to a field that is not plain
    obtain ⟨i, g, hg, hat, hkind⟩ := hactions.exists_field haction
    rw [hindex, Nat.zero_add] at hat
    obtain rfl := Option.some.inj hat
    obtain rfl := Option.some.inj (hg.symm.trans hf)
    exact hkind false hk
  image bound h h' r w hplan himage := by
    obtain ⟨-, -, hw⟩ := Record.image_ok (Heap.traverses_copyNested bound) himage
    obtain ⟨plan, hplan', himages⟩ := hw.values
    obtain rfl := Option.some.inj (hplan.symm.trans hplan')
    obtain ⟨v, image, hv, hat, hplain⟩ := himages.exists_getElem? hf
    rw [hk] at hplain
    cases hplain
    rw [hat, hv]

/-- The kind of an array heeds its elements just where they are neither pointers nor objects of a
class with device copies. Every array, whatever it holds, is in the plan as bytes that are no
pointer, and is copied as it stands: what comes back replaces the host's elements, pointers among
them, and a copy keeps the class pointers of the objects that are its elements. -/
theorem arrays_cross_bytewise (cat : Catalog) (c : Class) :
    (∀ v, cat.HeedsElements v ↔ ∀ element, v.IsArrayOf element →
      element.depth = 0 ∧ ∀ cls ∈ cat.enabled, element ≠ .struct cls) ∧
    ∀ s ∈ c.object.chain, ∀ v ∈ s.fields, isHidden s.name v = false →
      (∃ element, v.IsArrayOf element) →
      ∃ (n : Nat) (f : Field), (cat.plan c.object).fields[n]? = some f ∧
        f = { name := v.name, owner := s.name, kind := .plain false, syncBack := !v.quals.const } ∧
        cat.CopiesWhole c n f := by
  refine ⟨fun v => heedsElements_iff, ?_⟩
  rintro s hs v hv hshown ⟨element, harray⟩
  obtain ⟨n, hn⟩ := cat.exists_getElem?_plan hs hv hshown
  rw [cat.kind_of_isArrayOf harray] at hn
  exact ⟨n, _, hn, rfl, copiesWhole hn rfl⟩

end Catalog

namespace Sample

def cellRows : Variable :=
  { name := "rows", type := .array (.pointer (.primitive .double) 1) (.count 4) }

def cells : Variable :=
  { name := "cells", type := .array (.struct "Cell") (.count 2) }

/-- A class with device copies whose objects hold pointers and cells in arrays. -/
def sheet : Draft where
  name := "Sheet"
  fields := [cellRows, cells]
  coprocessor := true

def sheets : Catalog :=
  { enabled := ["Cell", "Sheet"] }

theorem exists_sheet : ∃ c, Lineage [sheet] c ∧
    c.object = .extension "Sheet" Root.object [cellRows, cells] := by
  obtain ⟨c, hc, hobject⟩ := exists_of_any_toOption (x := resolveChain [sheet])
    (P := fun c => c.object = .extension "Sheet" Root.object [cellRows, cells])
    (by decide +kernel)
  exact ⟨c, .of_resolveChain hc, hobject⟩

theorem cellRows_isArrayOf : cellRows.IsArrayOf (.pointer (.primitive .double) 1) :=
  ⟨rfl, _, rfl⟩

theorem cells_isArrayOf : cells.IsArrayOf (.struct "Cell") :=
  ⟨rfl, _, rfl⟩

/-- A sheet whose rows start at an address, with two cells that point to their class. -/
def sheetRecord (onDevice : Bool) (start cellClass : UInt64) : Record where
  cls := "Sheet"
  onDevice
  values :=
    [.array [start, start + 8, start + 16, start + 24], .array [cellClass, 0, cellClass, 0]]

end Sample

namespace Catalog

theorem arrays_cross_bytewise_sample : ∃ c, Lineage [Sample.sheet] c ∧
    (∃ n f, f.name = "rows" ∧ f.kind = .plain false ∧ Sample.sheets.CopiesWhole c n f) ∧
    ∃ n f, f.name = "cells" ∧ f.kind = .plain false ∧ Sample.sheets.CopiesWhole c n f := by
  obtain ⟨c, hlin, hobject⟩ := Sample.exists_sheet
  obtain ⟨-, hcopies⟩ := Sample.sheets.arrays_cross_bytewise c
  have hcopies : ∀ v ∈ [Sample.cellRows, Sample.cells], (∃ element, v.IsArrayOf element) →
      ∃ n f, f.name = v.name ∧ f.kind = .plain false ∧ Sample.sheets.CopiesWhole c n f := by
    intro v hv harray
    have hchain : c.object ∈ c.object.chain := by rw [hobject]; exact List.mem_cons_self
    have hfield : v ∈ c.object.fields := by rw [hobject]; exact List.mem_cons_of_mem _ hv
    have hshown : isHidden c.object.name v = false := by
      have hall : ∀ v ∈ [Sample.cellRows, Sample.cells], isHidden "Sheet" v = false := by decide
      rw [hobject]
      exact hall v hv
    obtain ⟨n, f, -, rfl, hcopies⟩ := hcopies c.object hchain v hfield hshown harray
    exact ⟨n, _, rfl, rfl, hcopies⟩
  exact ⟨c, hlin, hcopies _ (by decide) ⟨_, Sample.cellRows_isArrayOf⟩,
    hcopies _ (by decide) ⟨_, Sample.cells_isArrayOf⟩⟩

/-- The rows of a sheet are pointers, and its cells are objects of a class with device copies. On
the device the cells still point to the host's class, and when the sheet's state comes back its
rows point to the device's. -/
theorem array_elements_overlooked : ∃ c, Lineage [Sample.sheet] c ∧
    c.object.declared = [Sample.cellRows, Sample.cells] ∧
    Sample.cellRows.IsArrayOf (.pointer (.primitive .double) 1) ∧
    Sample.sheets.kind Sample.cellRows = .plain false ∧
    Sample.cells.IsArrayOf (.struct "Cell") ∧ Sample.sheets.isEnabled "Cell" = true ∧
    Sample.sheets.kind Sample.cells = .plain false ∧
    ∃ h : Heap, h.plan? "Sheet" = some (Sample.sheets.plan c.object) ∧
      (Sample.sheetRecord false 4096 512).image (Heap.copyNested 0) h
        = (.ok (Sample.sheetRecord true 4096 512), h) ∧
      (Sample.sheetRecord false 4096 512).merge h (Sample.sheetRecord true 65536 512)
        = .ok (Sample.sheetRecord false 65536 512, []) := by
  obtain ⟨c, hlin, hobject⟩ := Sample.exists_sheet
  refine ⟨c, hlin, ?_⟩
  rw [hobject]
  exact ⟨rfl, Sample.cellRows_isArrayOf, rfl, Sample.cells_isArrayOf, by decide, rfl,
    .ofPlans [Sample.sheets.plan (.extension "Sheet" Root.object [Sample.cellRows, Sample.cells])],
    by decide, rfl, rfl⟩

end Catalog

end Device

end ClassForge

import ClassForge.Output.File
import ClassForge.Proofs.Module.Build

/-!
# What stands in the files

Every module has a header. One that builds has a source too, and a device header if it has device
code. The text of each is that of its items, one behind the other. So what is said of the items of a
header or of a source is said of a file.
-/

namespace ClassForge.Module

open Output

/-- A module has one file of a name, and the text of the file is that of some items, one behind the
other. -/
def Writes (m : Module) (name : String) (items : List Item) : Prop :=
  ∃ f ∈ filesOf m, f.name = name ∧ (∀ g ∈ filesOf m, g.name = name → g = f) ∧
    f.text = String.join (items.map (·.text))

variable {b : Builder} {m : Module}

/-- The files of a module have different extensions. -/
theorem name_fileOf_iff {k k' : FileKind} :
    (fileOf m k).name = m.name ++ "." ++ k'.extension ↔ k = k' := by
  rw [fileOf, String.append_right_inj]
  cases k <;> cases k' <;> decide

theorem writes_of_mem_fileKinds {k : FileKind} (hk : k ∈ fileKinds m) :
    m.Writes (m.name ++ "." ++ k.extension) (k.items m) := by
  refine ⟨fileOf m k, List.mem_map_of_mem hk, rfl, fun g hg hname => ?_, rfl⟩
  obtain ⟨k', -, rfl⟩ := List.mem_map.1 hg
  rw [name_fileOf_iff.1 hname]

theorem Writes.text_eq {name : String} {items : List Item} (h : m.Writes name items) {f : File}
    (hf : f ∈ filesOf m) (hname : f.name = name) : f.text = String.join (items.map (·.text)) := by
  obtain ⟨g, _, _, hunique, htext⟩ := h
  rw [hunique f hf hname, htext]

/-- Every item stands in the text of its file. -/
theorem Writes.exists_text_eq {name : String} {items : List Item} (h : m.Writes name items)
    {i : Item} (hi : i ∈ items) :
    ∃ f ∈ filesOf m, f.name = name ∧ ∃ front back, f.text = front ++ i.text ++ back := by
  obtain ⟨f, hf, hname, -, htext⟩ := h
  obtain ⟨before, after, rfl⟩ := List.append_of_mem hi
  refine ⟨f, hf, hname, String.join (before.map (·.text)), String.join (after.map (·.text)), ?_⟩
  rw [htext, List.map_append, List.map_cons, String.join_append, String.join_cons,
    String.append_assoc]

theorem writes_header (m : Module) : m.Writes (m.name ++ ".h") (header m) := by
  have hkind : .header ∈ fileKinds m := by
    unfold fileKinds
    split <;> simp
  have hfile := writes_of_mem_fileKinds hkind
  rwa [String.append_assoc] at hfile

/-! ## The files of a module that builds -/

theorem Stages.writes_source (s : Stages b m) : m.Writes (m.name ++ ".c") (source m) := by
  have hfile := writes_of_mem_fileKinds (m := m) (k := .source) (by simp [fileKinds, s.kind])
  rwa [String.append_assoc] at hfile

/-- A module that builds has a device header just if it has device code. -/
theorem Stages.exists_deviceHeader_iff (s : Stages b m) :
    (∃ f ∈ filesOf m, f.name = m.name ++ ".cuh") ↔ m.hasDeviceCode = true := by
  have hname : ∀ k : FileKind, (fileOf m k).name = m.name ++ ".cuh" ↔ k = .deviceHeader := by
    intro k
    rw [← name_fileOf_iff, String.append_assoc]
    rfl
  simp [filesOf, fileKinds, s.kind, hname]

theorem Stages.writes_deviceHeader (s : Stages b m) (h : m.hasDeviceCode = true) :
    m.Writes (m.name ++ ".cuh") (deviceHeader m) := by
  have hfile := writes_of_mem_fileKinds (m := m) (k := .deviceHeader)
    (by simp [fileKinds, s.kind, h])
  rwa [String.append_assoc] at hfile

end ClassForge.Module

import ClassForge.Proofs.C.Identifier
import ClassForge.Proofs.Session.Includes
import Mathlib.Data.List.Induction

/-!
# Include guards

Each header is guarded by a symbol that is its module's name in upper case. Two modules of a session
have different names, but names that differ in case only have one symbol. So of two such headers
that are read together, the second is empty. Main statement: this is the only way in which the
headers of a session, and that of the object runtime, come to share a symbol.
-/

namespace ClassForge

/-! ## Upper case -/

namespace Text

open C

theorem toNat_toUpper (c : Char) :
    c.toUpper.toNat = if 97 ≤ c.toNat ∧ c.toNat ≤ 122 then c.toNat - 32 else c.toNat := by
  delta Char.toUpper
  grind [UInt32.le_iff_toNat_le, UInt32.toNat_add, Char.toNat]

theorem toNat_toLower (c : Char) :
    c.toLower.toNat = if 65 ≤ c.toNat ∧ c.toNat ≤ 90 then c.toNat + 32 else c.toNat := by
  delta Char.toLower
  grind [UInt32.le_iff_toNat_le, UInt32.toNat_add, Char.toNat]

theorem toUpper_eq_iff {c d : Char} : c.toUpper = d.toUpper ↔ c.toLower = d.toLower := by
  rw [← Char.toNat_inj, ← Char.toNat_inj, toNat_toUpper, toNat_toUpper, toNat_toLower,
    toNat_toLower]
  grind

theorem map_toUpper_eq_iff {cs ds : List Char} :
    cs.map Char.toUpper = ds.map Char.toUpper ↔ cs.map Char.toLower = ds.map Char.toLower := by
  induction cs generalizing ds with
  | nil => cases ds <;> simp
  | cons c cs ih => cases ds <;> simp [toUpper_eq_iff, ih]

/-- On identifiers the upper case is that of ASCII. -/
theorem toList_upper {name : String} (h : isIdentifier name = true) :
    (upper name).toList = name.toList.map Char.toUpper := by
  have hascii : ∀ c ∈ name.toList, upperChar c = [c.toUpper] :=
    fun c hc => if_pos (toNat_lt_of_isNameChar (isNameChar_of_mem h hc))
  rw [upper, String.toList_ofList, List.flatMap_congr hascii, List.map_eq_flatMap]

/-- Identifiers are one in upper case where they are one in lower case. -/
theorem upper_eq_iff {name name' : String} (h : isIdentifier name = true)
    (h' : isIdentifier name' = true) : upper name = upper name' ↔ name.toLower = name'.toLower := by
  rw [← String.toList_inj, toList_upper h, toList_upper h', map_toUpper_eq_iff,
    ← String.toList_map, ← String.toList_map, String.toList_inj]
  rfl

end Text

/-! ## The guards of a file -/

namespace Output

open ClassForge.Module

/-- The symbol with which a piece of a file guards what follows. -/
def Item.guard? : Item → Option String
  | .guard symbol => some symbol
  | _ => none

/-- The symbols that guard a file, or a part of it. -/
def guards (items : List Item) : List String :=
  items.filterMap (·.guard?)

theorem guards_append (items items' : List Item) :
    guards (items ++ items') = guards items ++ guards items' :=
  List.filterMap_append

theorem guards_flatMap {α : Type} {f : α → List Item} (h : ∀ a, guards (f a) = []) (l : List α) :
    guards (l.flatMap f) = [] := by
  rw [guards, List.filterMap_flatMap]
  exact List.flatMap_eq_nil_iff.2 fun a _ => h a

theorem guards_map {α : Type} {f : α → Item} (h : ∀ a, (f a).guard? = none) (l : List α) :
    guards (l.map f) = [] := by
  simp [guards, h]

theorem guards_paragraph (items : List Item) : guards (paragraph items) = guards items := by
  unfold paragraph
  split
  next hempty => rw [List.isEmpty_iff.1 hempty]
  next =>
    rw [guards_append]
    exact List.append_nil _

/-- A header has one guard. -/
theorem guards_header (m : Module) : guards (header m) = [m.config.guard "H"] := by
  -- section by section: none of them has a guard besides the one around the header
  have hincludes : guards (includeItems m) = [] := by
    simp only [includeItems, guards_append, guards_paragraph,
      guards_map (f := Item.includeLibrary) fun _ => rfl,
      guards_map (f := Item.includeLocal) fun _ => rfl]
    rfl
  have htypedefs : guards (typedefItems m) = [] := by
    simp only [typedefItems, guards_append, guards_paragraph,
      guards_map (f := Item.typedef) fun _ => rfl]
    split <;> rfl
  have hforward : guards (forwardItems m) = [] := by
    unfold forwardItems
    split
    · rfl
    · exact guards_flatMap (fun _ => rfl) _
  have hexterns : guards (externItems m) = [] := by
    simp only [externItems, guards_append, guards_paragraph,
      guards_map (f := Item.externVariable) fun _ => rfl,
      guards_map (f := fun f : Function => Item.externFunction f.signature) fun _ => rfl]
    rfl
  have hruntime : guards runtimeItems = [] := by
    decide
  have hclass : ∀ u : ClassUnit, guards (classItems u) = [] := by
    intro u
    simp only [classItems, guards_append,
      guards_map (f := fun f : C.FunctionDef => Item.externFunction f.signature) fun _ => rfl]
    rfl
  have hdefinitions : guards (definitionItems m) = [] := by
    unfold definitionItems
    split
    · rfl
    · exact guards_flatMap hclass _
  have hguard : header m = [.guard (m.config.guard "H")] ++ includeItems m ++ typedefItems m
      ++ forwardItems m ++ externItems m ++ runtimeItems ++ definitionItems m ++ [.endIf] := rfl
  simp only [hguard, guards_append, hincludes, htypedefs, hforward, hexterns, hruntime,
    hdefinitions, List.append_nil]
  rfl

/-- So has a device header. -/
theorem guards_deviceHeader (m : Module) : guards (deviceHeader m) = [m.config.guard "CUH"] := by
  have hsymbols : ∀ g : List DeviceVariable, guards (g.map .externDevice ++ [.blank]) = [] := by
    intro g
    rw [guards_append, guards_map (f := Item.externDevice) fun _ => rfl]
    rfl
  simp only [deviceHeader, guards_append, guards_flatMap hsymbols]
  rfl

end Output

/-! ## The guards of a session -/

namespace Module

open C Output

/-- Two modules have one symbol for a kind of file where their names are one but for case. -/
theorem guard_eq_iff {m m' : Module} (h : isIdentifier m.name = true)
    (h' : isIdentifier m'.name = true) (suffix : String) :
    m.config.guard suffix = m'.config.guard suffix ↔ m.name.toLower = m'.name.toLower := by
  rw [Config.guard, Config.guard, String.append_left_inj, String.append_left_inj]
  exact Text.upper_eq_iff h h'

/-- A header and a device header never have one symbol. -/
theorem guard_ne (m m' : Module) : m.config.guard "CUH" ≠ m'.config.guard "H" := by
  intro heq
  have hlast := congrArg (fun s : String => s.toList.reverse) heq
  simp [Config.guard] at hlast

end Module

namespace Session

open C ClassForge.Module Output

/-- The object runtime and the modules that are built from descriptors. -/
def program (ds : List Descriptor) : List Module :=
  Module.runtime :: ({} : Session).builtModules ds

theorem Chronicle.names_nodup {rs : List Record} (h : Chronicle rs) :
    (rs.map (·.module.name)).Nodup := by
  induction rs using List.reverseRecOn with
  | nil => exact List.nodup_nil
  | append_singleton rs r ih =>
    rw [List.map_append, List.map_singleton, List.nodup_append_comm, List.singleton_append,
      List.nodup_cons]
    exact ⟨(h rs r [] rfl).fresh, ih h.of_append⟩

theorem Founded.isIdentifier {before : List Record} {r : Record} (h : Founded before r) :
    isIdentifier r.module.name = true := by
  obtain ⟨b, -, hbuild⟩ := h.builds
  obtain ⟨s⟩ := build_ok hbuild
  rw [Module.name, s.config]
  exact s.named

theorem isIdentifier_of_mem_program {ds : List Descriptor} {m : Module} (hm : m ∈ program ds) :
    isIdentifier m.name = true := by
  rcases List.mem_cons.1 hm with rfl | hm
  · decide
  · rw [← records_module] at hm
    obtain ⟨r, hr, rfl⟩ := List.mem_map.1 hm
    obtain ⟨before, after, hsplit⟩ := List.append_of_mem hr
    exact (chronicle_records ds before r after hsplit).isIdentifier

/-- The modules of a session have different names, and each header is a file with one guard. The
guards are different, among each other and from that of the object runtime, just when the names are
different in lower case too; no device header has the guard of a header. -/
theorem headerGuards_nodup_iff (ds : List Descriptor) :
    ((({} : Session).builtModules ds).map (·.name)).Nodup ∧
    (∀ m ∈ program ds, m.Writes (m.name ++ ".h") (header m)) ∧
    (∀ m ∈ program ds, ∃ g, guards (header m) = [g] ∧ (header m).head? = some (.guard g) ∧
      ∀ m' ∈ program ds, (guards (header m') = [g] ↔ m'.name.toLower = m.name.toLower) ∧
        guards (deviceHeader m') ≠ [g]) ∧
    (((program ds).flatMap fun m => guards (header m)).Nodup ↔
      ((program ds).map (·.name.toLower)).Nodup) := by
  have heq : ∀ m ∈ program ds, ∀ m' ∈ program ds,
      m'.config.guard "H" = m.config.guard "H" ↔ m'.name.toLower = m.name.toLower :=
    fun m hm m' hm' =>
      guard_eq_iff (isIdentifier_of_mem_program hm') (isIdentifier_of_mem_program hm) "H"
  refine ⟨?_, fun m _ => m.writes_header, fun m hm =>
    ⟨m.config.guard "H", guards_header m, rfl, fun m' hm' => ⟨?_, ?_⟩⟩, ?_⟩
  · rw [← records_module, List.map_map]
    exact (chronicle_records ds).names_nodup
  · rw [guards_header, List.singleton_inj]
    exact heq m hm m' hm'
  · rw [guards_deviceHeader, Ne, List.singleton_inj]
    exact guard_ne m' m
  · simp only [guards_header, ← List.map_eq_flatMap, List.Nodup, List.pairwise_map]
    exact List.Pairwise.iff_of_mem fun hm' hm => not_congr (heq _ hm _ hm')

namespace Sample

/-- A module without imports, and one on top of it. -/
theorem builtModules_layers {x y : Layer} (hx : x ∈ stacked) (hy : y ∈ stacked)
    (hroot : x.base? = none) (hbase : y.base? = some ⟨x.module, x.result⟩)
    (hne : y.module ≠ x.module) :
    ∃ m m', ({} : Session).builtModules [x.descriptor, y.descriptor] = [m, m'] ∧
      m.name = x.module ∧ m'.name = y.module ∧ .includeLocal (x.module ++ ".h") ∈ header m' := by
  obtain ⟨m, s, hm, -, hmodules, hclasses⟩ :=
    attempt_layer hx (s := {}) List.not_mem_nil (by simp [hroot])
  have himports : ∀ b ∈ y.base?, s.classes.head? = some b := by
    intro b hb
    obtain rfl := Option.some.inj (hbase.symm.trans hb)
    rw [hclasses]
    rfl
  obtain ⟨m', s', hm', -⟩ := attempt_layer hy (by simpa [hmodules] using hne) himports
  refine ⟨m, m', ?_, name_of_attempt hm, name_of_attempt hm', ?_⟩
  · rw [builtModules, outcomes, History.outcomes_cons, History.outcomes_cons, hm, hm']
    rfl
  · -- the second module imports the class of the first, so it includes that module's header
    have hfollows := (follows_empty.build hm (imported_layer (by simp [hroot]))).2
    refine (hfollows.build hm' (imported_layer himports)).1.includes ⟨x.module, x.result⟩ ?_
    simp [hbase]

end Sample

/-- Of two modules whose names differ in case only, the second includes the header of the first,
which has the guard of its own header. -/
theorem shapes_guarded_twice :
    ¬ ((program [Sample.shapes.descriptor, Sample.squares.descriptor]).flatMap
        fun m => guards (header m)).Nodup ∧
    ∃ m m', ({} : Session).builtModules [Sample.shapes.descriptor, Sample.squares.descriptor]
        = [m, m'] ∧ m.name ≠ m'.name ∧ guards (header m) = ["SHAPES_H"] ∧
      guards (header m') = ["SHAPES_H"] ∧ .includeLocal (m.name ++ ".h") ∈ header m' := by
  obtain ⟨m, m', hbuilt, hm, hm', hincludes⟩ := Sample.builtModules_layers
    (x := Sample.shapes) (y := Sample.squares) (by simp [Sample.stacked]) (by simp [Sample.stacked])
    rfl rfl (by decide)
  -- the names differ in case only, and guards are in capitals
  have hguard : guards (header m) = ["SHAPES_H"] := by
    rw [guards_header, Config.guard, ← Module.name, hm]
    decide
  have hguard' : guards (header m') = ["SHAPES_H"] := by
    rw [guards_header, Config.guard, ← Module.name, hm']
    decide
  refine ⟨?_, m, m', hbuilt, ?_, hguard, hguard', hm ▸ hincludes⟩
  · rw [program, hbuilt, List.flatMap_cons, List.flatMap_cons, List.flatMap_singleton, hguard,
      hguard', guards_header]
    decide
  · rw [hm, hm']
    decide

theorem headerGuards_nodup_iff_sample :
    ((program [Sample.vessels.descriptor, Sample.tanks.descriptor]).flatMap
        fun m => guards (header m)).Nodup ∧
    ∃ m ∈ program [Sample.vessels.descriptor, Sample.tanks.descriptor], m.name = "tanks" ∧
      guards (header Module.runtime) ≠ guards (header m) := by
  obtain ⟨m, m', hbuilt, hm, hm', -⟩ := Sample.builtModules_layers
    (x := Sample.vessels) (y := Sample.tanks) (by simp [Sample.stacked, Sample.layers])
    (by simp [Sample.stacked, Sample.layers]) rfl rfl (by decide)
  obtain ⟨-, -, hguards, hnodup⟩ :=
    headerGuards_nodup_iff [Sample.vessels.descriptor, Sample.tanks.descriptor]
  have hmem : m' ∈ program [Sample.vessels.descriptor, Sample.tanks.descriptor] := by
    simp [program, hbuilt]
  refine ⟨hnodup.2 ?_, m', hmem, hm', fun heq => ?_⟩
  · rw [program, hbuilt, List.map_cons, List.map_cons, List.map_singleton, hm, hm']
    decide +kernel
  · obtain ⟨g, hg, -, hsame⟩ := hguards m' hmem
    have hlower := (hsame Module.runtime List.mem_cons_self).1.1 (heq.trans hg)
    rw [hm'] at hlower
    exact absurd hlower (by decide +kernel)

end Session

end ClassForge

import ClassForge.Output.Source
import ClassForge.Proofs.Class.Supply
import ClassForge.Proofs.Module.Build
import ClassForge.Proofs.Module.Files

/-!
# Functions defined from bodies

The source of a module defines one function for each body that the author of a class gives. The
function has the signature of the table's entry, so its parameters are named as the class that
introduced the method names them, and not as the definition with the body does.
-/

namespace ClassForge.Module

open C ClassForge.Class

/-! ## What an entry makes the source define -/

/-- The function that the source defines for an entry, if the entry holds a body. -/
def emitted? (m : Method) : Option FunctionDef :=
  match m.implementation with
  | some ⟨symbol, _, .verbatim text⟩ =>
    some
      { signature := { m.signature with name := symbol, role := .method, storage := some .static }
        body := .verbatim text }
  | _ => none

theorem emitted?_eq_some {m : Method} {g : FunctionDef} :
    emitted? m = some g ↔ ∃ i text, m.implementation = some i ∧ i.source = .verbatim text ∧
      g = { signature :=
              { m.signature with name := i.symbol, role := .method, storage := some .static }
            body := .verbatim text } := by
  unfold emitted?
  split
  next symbol provider text himpl => simp [himpl, eq_comm]
  next hother =>
    simp only [reduceCtorEq, false_iff, not_exists, not_and]
    rintro ⟨symbol, provider, source⟩ text himpl rfl
    exact absurd himpl (hother symbol provider text)

theorem makeStatic_ok {s t : Signature} (h : s.makeStatic = .ok t) :
    t = { s with storage := some .static } := by
  unfold Signature.makeStatic Signature.qualify at h
  cases hs : s.storage with
  | none =>
    simp [hs, Qualifiers.hasTypePart, Storage.join?] at h
    exact h.symm
  | some storage =>
    cases storage <;> simp [hs, Qualifiers.hasTypePart, Storage.join?] at h
    exact h.symm

theorem provisionOf_ok {m : Method} {p : Option Provision} (h : provisionOf m = .ok p) :
    p.bind (·.definition?) = emitted? m := by
  cases himpl : m.implementation with
  | none =>
    simp only [provisionOf, himpl] at h
    cases h
    simp [emitted?, himpl]
  | some i =>
    obtain ⟨symbol, provider, source⟩ := i
    simp only [provisionOf, himpl] at h
    cases source with
    | verbatim text =>
      obtain ⟨s, hs, h⟩ := bind_eq_ok.1 h
      obtain rfl := pure_eq_ok.1 h
      obtain rfl := makeStatic_ok (ModelError.ofType_eq_ok.1 hs)
      simp [emitted?, himpl, Provision.definition?]
    | _ =>
      cases h
      simp [emitted?, himpl, Provision.definition?]

/-- The source defines what the entries make it define, in the order of the table. -/
theorem provisionsOf_ok {ms : List Method} {ps : List Provision} (h : provisionsOf ms = .ok ps) :
    ps.filterMap (·.definition?) = ms.filterMap emitted? := by
  induction ms generalizing ps with
  | nil =>
    cases h
    rfl
  | cons m ms ih =>
    obtain ⟨p, hp, h⟩ := bind_eq_ok.1 h
    obtain ⟨ps', hrest, h⟩ := bind_eq_ok.1 h
    obtain rfl := pure_eq_ok.1 h
    have hfirst := provisionOf_ok hp
    rw [List.filterMap_append, ih hrest, List.filterMap_cons, ← hfirst]
    cases p with
    | none => rfl
    | some p => cases hdef : p.definition? <;> simp [hdef]

/-- How the source has the implementations that a class supplies, and the class's copy routines,
stands in the source of the module. -/
theorem mem_source_of_mem_items {m : Module} {u : ClassUnit} (hu : u ∈ m.classes) {i : Output.Item}
    (hi : i ∈ u.provisions.flatMap Output.provisionItems
      ++ u.routines.toList.flatMap Output.routineItems) :
    i ∈ Output.source m := by
  have himpl : i ∈ Output.implementationItems u := by
    unfold Output.implementationItems
    split
    next hnone =>
      rw [Bool.and_eq_true, List.isEmpty_iff, Option.isNone_iff_eq_none] at hnone
      simp [hnone] at hi
    next => exact List.mem_cons_of_mem _ hi
  refine List.mem_append_right _ (List.mem_flatMap.2 ⟨u, hu, ?_⟩)
  exact List.mem_append_left _ (List.mem_append_left _ himpl)

/-- The functions defined for the classes of a module are in its source. -/
theorem mem_source_of_mem_definitions {m : Module} {u : ClassUnit} (hu : u ∈ m.classes)
    {g : FunctionDef} (hg : g ∈ u.definitions) : .function g ∈ Output.source m := by
  obtain ⟨p, hp, hdef⟩ := List.mem_filterMap.1 hg
  have hitem : .function g ∈ Output.provisionItems p := by
    cases p with
    | external s => cases hdef
    | definition f =>
      obtain rfl := Option.some.inj hdef
      exact List.mem_cons_self
  exact mem_source_of_mem_items hu (List.mem_append_left _ (List.mem_flatMap.2 ⟨p, hp, hitem⟩))

/-! ## Along a lineage -/

section Lineage

variable {ds : List Draft} {c : Class}

/-- What a class makes the source define is named after the class and the method. -/
theorem name_of_emitted? (h : Lineage ds c) (hnames : (c.chain.map (·.name)).Nodup) {e : Method}
    (he : e ∈ c.implemented) {g : FunctionDef} (hg : emitted? e = some g) :
    g.name = Name.implementation c.name e.name := by
  obtain ⟨i, text, himpl, hsource, rfl⟩ := emitted?_eq_some.1 hg
  obtain ⟨hmem, hprovided⟩ := List.mem_filter.1 he
  have hprovider : i.providedBy = c.name := by
    simpa [Method.providedBy, himpl] using hprovided
  have hnear := h.implementation_of_mem hnames hmem
  rw [← hprovider]
  exact symbol_of_nearest? (hnear.symm.trans himpl) hsource

/-- No two of a class's entries make the source define functions of one name. -/
theorem emitted?_inj (h : Lineage ds c) (hnames : (c.chain.map (·.name)).Nodup) {e e' : Method}
    (he : e ∈ c.implemented) (he' : e' ∈ c.implemented) {g g' : FunctionDef}
    (hg : emitted? e = some g) (hg' : emitted? e' = some g') (hname : g.name = g'.name) :
    g = g' := by
  rw [name_of_emitted? h hnames he hg, name_of_emitted? h hnames he' hg',
    Name.implementation_inj] at hname
  obtain rfl := eq_of_key_eq (f := Method.name) h.names_nodup (List.mem_filter.1 he).1
    (List.mem_filter.1 he').1 hname
  exact Option.some.inj (hg.symm.trans hg')

/-- A body that a draft gives makes the source define a function with the entry's signature. -/
theorem exists_emitted_of_verbatim {d : Draft} (h : Lineage (d :: ds) c)
    (hnames : (c.chain.map (·.name)).Nodup) {f : MethodDef} (hf : f ∈ d.methods) {text : String}
    (hv : f.supply = .verbatim text) : ∃ e ∈ c.implemented, e.name = f.name ∧
      emitted? e = some
        { signature :=
            { e.signature with
              name := Name.implementation c.name f.name, role := .method, storage := some .static }
          body := .verbatim text } := by
  obtain ⟨e, he, hename, himpl⟩ := h.exists_of_verbatim hnames hf hv
  obtain ⟨base, -, hd⟩ := h.last
  refine ⟨e, List.mem_filter.2 ⟨he, ?_⟩, hename, ?_⟩
  · simp [Method.providedBy, himpl, hd.name]
  · exact emitted?_eq_some.2 ⟨_, text, himpl, rfl, by rw [hd.name]⟩

end Lineage

/-! ## Names of parameters -/

theorem definitions_eq {catalog : Device.Catalog} {r : Resolved} {u : ClassUnit}
    (h : unitOf catalog r = .ok u) : u.definitions = r.cls.implemented.filterMap emitted? := by
  obtain ⟨-, -, hprovisions, -⟩ := unitOf_ok h
  exact provisionsOf_ok hprovisions

/-- For a body that the author of a class gives, the source defines one function, with that body.
Its parameters have the names that the definition with the body declares exactly if the class above
has no such method, or has it with parameters of the same names. -/
theorem definition_of_verbatim {b : Builder} {m : Module} {u : ClassUnit} {d : Draft}
    {f : MethodDef} {text : String} (himports : ∀ c ∈ b.imports, Available c)
    (hbuild : b.build = .ok m) (hu : u ∈ m.classes) (hd : d ∈ b.drafts) (hname : d.name = u.name)
    (hf : f ∈ d.methods) (hv : f.supply = .verbatim text) :
    m.Writes (m.name ++ ".c") (Output.source m) ∧ ∃ g ∈ u.definitions, .function g ∈ Output.source m ∧
      g.name = Name.implementation u.name f.name ∧ g.body = .verbatim text ∧
      g.signature.storage = some .static ∧ (∀ g' ∈ u.definitions, g'.name = g.name → g' = g) ∧
      (g.signature.params.map (·.name) = f.signature.params.map (·.name) ↔
        ∀ base, u.cls.base? = some base → ∀ e, base.method? f.name = some e →
          e.signature.params.map (·.name) = f.signature.params.map (·.name)) := by
  obtain ⟨s⟩ := build_ok hbuild
  obtain ⟨above, base, r, horigin, hunit⟩ :=
    s.origin_of_draft (fun c hc => (himports c hc).sound) hu hd hname
  obtain ⟨hcls, -⟩ := unitOf_ok hunit
  have hlin := horigin.lineage_cls
  have hdefs := definitions_eq hunit
  obtain ⟨e, he, hename, hg⟩ := exists_emitted_of_verbatim hlin horigin.names hf hv
  have hmem := List.mem_filterMap.2 ⟨e, he, hg⟩
  rw [← hdefs] at hmem
  refine ⟨s.writes_source, _, hmem, mem_source_of_mem_definitions hu hmem, ?_, rfl, rfl, ?_, ?_⟩
  · rw [ClassUnit.name, hcls]
    rfl
  · intro g' hg' hsame
    rw [hdefs] at hg'
    obtain ⟨e', he', hemit⟩ := List.mem_filterMap.1 hg'
    exact emitted?_inj hlin horigin.names he' he hemit hg hsame
  · -- the entry's signature is the one above, if there is one above
    have hsig := horigin.lineage.signature_eq horigin.derives (List.mem_filter.1 he).1 hf hename
    simp only [hsig, hcls, horigin.derives.base?_eq]
    cases hbase : base.method? f.name with
    | none => simp [hbase]
    | some e₀ => simp [hbase]

theorem definition_of_verbatim_sample : ∃ m u, Sample.tiles.build = .ok m ∧ u ∈ m.classes ∧
    ∃ g ∈ u.definitions, .function g ∈ Output.source m ∧ g.name = "Square_resize" ∧
      g.body = .verbatim "((struct Square*) _self)->side = width;" := by
  obtain ⟨m, hbuild, -, u, hu, hname, -⟩ := Sample.build_tiles
  obtain ⟨-, g, hg, hsource, hgname, hbody, -⟩ := definition_of_verbatim (d := Class.Sample.square)
    (f := Class.Sample.squareResize) Sample.available_imports hbuild hu (by simp [Sample.tiles])
    hname.symm List.mem_cons_self rfl
  exact ⟨m, u, hbuild, hu, g, hg, hsource, by rw [hgname, hname]; rfl, hbody⟩

/-- An override that swaps the names of its parameters gets them in the order of the class that
introduced the method: `width` in the body is the second parameter, and the override declares it as
the third. -/
theorem override_keeps_inherited_names : ∃ m, Sample.tiles.build = .ok m ∧
    ∃ u ∈ m.classes, ∃ d ∈ Sample.tiles.drafts, d.name = u.name ∧
      ∃ f ∈ d.methods, f.supply = .verbatim "((struct Square*) _self)->side = width;" ∧
        ∃ g ∈ u.definitions, g.name = Name.implementation u.name f.name ∧
          g.signature.params.map (·.name) ≠ f.signature.params.map (·.name) := by
  obtain ⟨m, hbuild, -, u, hu, hname, g, hg, hgname, hparams⟩ := Sample.build_tiles
  refine ⟨m, hbuild, u, hu, Class.Sample.square, by simp [Sample.tiles], hname.symm,
    Class.Sample.squareResize, List.mem_cons_self, rfl, g, hg, ?_, ?_⟩
  · rw [hgname, hname]
    rfl
  · rw [hparams]
    decide

end ClassForge.Module

import ClassForge.Proofs.C.Signature
import ClassForge.Proofs.Module.Prototype
import ClassForge.Proofs.Module.Registration

/-!
# Builders that can be made

A builder is made by starting from settings and then defining and importing classes and declaring
globals and functions, each of which is checked. `Builder.WellFormed` is what these checks ensure of
every builder. Signatures are checked when they are declared, and every entry of a table has one
that was.
-/

namespace ClassForge

open C

/-! ## Signatures -/

namespace C.Signature

/-- The root's methods could have been declared by a user. -/
theorem made_of_mem_root {s : Signature} (hs : s ∈ Class.Root.signatures) : s.Made := by
  have hall : ∀ s ∈ Class.Root.signatures,
      (declare s.name s.params s.returns s.role).toOption = some s := by decide +kernel
  have hsome := hall s hs
  cases hdeclare : declare s.name s.params s.returns s.role with
  | error e => simp [hdeclare, Except.toOption] at hsome
  | ok t =>
    obtain rfl : t = s := by simpa [hdeclare, Except.toOption] using hsome
    exact .declare hdeclare

end C.Signature

/-! ## Tables -/

namespace Class

/-- The signatures of all entries of a class's table can be made. -/
def Made (c : Class) : Prop :=
  ∀ e ∈ c.methods, e.signature.Made

/-- The signatures of all methods of a draft can be made. -/
def Draft.Made (d : Draft) : Prop :=
  ∀ f ∈ d.methods, f.signature.Made

theorem made_rootClass : rootClass.Made := by
  intro e he
  obtain ⟨s, hs, rfl⟩ := List.mem_map.1 he
  exact Signature.made_of_mem_root hs

/-- Every entry has the signature of a definition, or of an entry above. -/
theorem Draft.Derives.made {d : Draft} {base c : Class} (h : d.Derives base c) (hd : d.Made)
    (hbase : base.Made) : c.Made := by
  intro e he
  rcases h.mem_methods.1 he with ⟨e₀, he₀, rfl⟩ | hadded
  · rw [show (d.inherit e₀).signature = e₀.signature from congrArg Face.signature (d.face_inherit e₀)]
    exact hbase e₀ he₀
  · obtain ⟨f, hf, rfl⟩ := List.mem_map.1 hadded
    rw [show (d.copied (f.introduce d.name)).signature = f.signature from
      congrArg Face.signature (d.face_copied _)]
    exact hd f (mem_newDefs.1 hf).1

/-- A table above holds no other signatures. -/
theorem Lineage.made_of_mem_chain {ds : List Draft} {a c : Class} (h : Lineage ds c)
    (hc : c.Made) (ha : a ∈ c.chain) : a.Made := by
  intro e he
  obtain ⟨e', he', hface⟩ := h.exists_face_eq ha he
  rw [← show e'.signature = e.signature from congrArg Face.signature hface]
  exact hc e' he'

end Class

namespace Module

open ClassForge.Class

theorem resolveAll_made {scope : List Class} {e : EntryPoints} {ds : List Draft}
    {rs : List Resolved} (hscope : ∀ c ∈ scope, c.Made) (hds : ∀ d ∈ ds, d.Made)
    (h : resolveAll scope e ds = .ok rs) : ∀ r ∈ rs, r.cls.Made := by
  induction ds generalizing scope e rs with
  | nil =>
    cases h
    simp
  | cons d ds ih =>
    obtain ⟨base, r, e', rs', hbase, hres, hrest, rfl⟩ := resolveAll_cons_ok h
    obtain ⟨hd, hds⟩ := List.forall_mem_cons.1 hds
    have hr : r.cls.Made := (EntryPoints.resolve_ok (e := e) (by rw [hres])).1.made hd
      (hscope base (List.mem_of_find?_eq_some hbase))
    -- the superclass of a later draft may be the class just made
    refine List.forall_mem_cons.2 ⟨hr, ih (fun c hc => ?_) hds hrest⟩
    rcases List.mem_append.1 hc with hold | hnew
    · exact hscope c hold
    · exact List.mem_singleton.1 hnew ▸ hr

/-! ## Builders -/

namespace Builder

/-- A builder that can be made: it starts from settings, defines classes, imports the root or
classes that were built, and declares globals and functions. -/
inductive Made : Builder → Prop
  | start (config : Config) : Made { config }
  | defineClass {b : Builder} {d : Draft} (hb : Made b) (hd : d.Made) : Made (b.defineClass d)
  | importRoot {b : Builder} (hb : Made b) : Made (b.importClass rootClass)
  | importBuilt {b b' : Builder} {m : Module} {u : ClassUnit} (hb : Made b) (hb' : Made b')
    (hbuild : b'.build = .ok m) (hu : u ∈ m.classes) : Made (b.importClass u.cls)
  | declareGlobal {b b' : Builder} {v : Variable} {policy : Policy} (hb : Made b)
    (h : b.declareGlobal v policy = .ok b') : Made b'
  | declareFunction {b b' : Builder} {f : Function} {policy : Policy} (hb : Made b)
    (hf : f.signature.Made) (h : b.declareFunction f policy = .ok b') : Made b'

/-- What the checks ensure of every builder. -/
structure WellFormed (b : Builder) : Prop where
  imports : ∀ c ∈ b.imports, Available c ∧ c.Made
  drafts : ∀ d ∈ b.drafts, d.Made
  globals : b.globals.Keyed (·.name)
  functions : b.functions.Keyed (·.signature.name)
  disjoint : ∀ n ∈ b.globals.names, n ∉ b.functions.names
  /-- No global has a storage class. -/
  stored : ∀ v ∈ b.globals.items, v.quals.storage = none
  declared : ∀ f ∈ b.functions.items, f.signature.Made ∧ f.signature.storage ≠ some .static

namespace WellFormed

variable {b b' : Builder}

theorem sound (h : b.WellFormed) : ∀ c ∈ b.imports, c.Sound :=
  fun c hc => (h.imports c hc).1.sound

theorem lineage (h : b.WellFormed) : ∀ c ∈ b.imports, ∃ ds, Lineage ds c :=
  fun c hc => (h.sound c hc).lineage

theorem start (config : Config) : WellFormed { config } := by
  refine ⟨?_, ?_, ⟨?_, List.nodup_nil⟩, ⟨?_, List.nodup_nil⟩, ?_, ?_, ?_⟩ <;>
    simp [Declarations.items, Declarations.names]

theorem importClass {c : Class} (h : b.WellFormed) (hc : Available c ∧ c.Made) :
    (b.importClass c).WellFormed where
  __ := h
  imports := by
    intro x hx
    rcases List.mem_append.1 hx with hold | hnew
    · exact h.imports x hold
    · exact List.mem_singleton.1 hnew ▸ hc

theorem defineClass {d : Draft} (h : b.WellFormed) (hd : d.Made) : (b.defineClass d).WellFormed where
  __ := h
  drafts := by
    intro x hx
    rcases List.mem_append.1 hx with hold | hnew
    · exact h.drafts x hold
    · exact List.mem_singleton.1 hnew ▸ hd

theorem declareGlobal {v : Variable} {policy : Policy} (h : b.WellFormed)
    (hok : b.declareGlobal v policy = .ok b') : b'.WellFormed := by
  obtain ⟨hadmissible, hfree, -, rfl⟩ := declareGlobal_eq_ok.1 hok
  exact {
    __ := h
    globals := h.globals.put rfl
    disjoint := fun n hn => by
      rcases Declarations.mem_names_put.1 hn with hold | rfl
      · exact h.disjoint n hold
      · exact hfree
    stored := fun w hw => by
      rcases Declarations.mem_items_put hw with hold | rfl
      · exact h.stored w hold
      · exact hadmissible.2 }

theorem declareFunction {f : Function} {policy : Policy} (h : b.WellFormed)
    (hf : f.signature.Made) (hok : b.declareFunction f policy = .ok b') : b'.WellFormed := by
  obtain ⟨hadmissible, hfree, -, rfl⟩ := declareFunction_eq_ok.1 hok
  exact {
    __ := h
    functions := h.functions.put rfl
    disjoint := fun n hn hmem => by
      rcases Declarations.mem_names_put.1 hmem with hold | rfl
      · exact h.disjoint n hn hold
      · exact hfree hn
    declared := fun g hg => by
      rcases Declarations.mem_items_put hg with hold | rfl
      · exact h.declared g hold
      · exact ⟨hf, hadmissible⟩ }

/-- The classes of a module that is built can be imported, and their tables hold signatures that can
be made. -/
theorem built {m : Module} (h : b.WellFormed) (hbuild : b.build = .ok m) :
    ∀ u ∈ m.classes, Available u.cls ∧ u.cls.Made := by
  intro u hu
  have himports : ∀ c ∈ b.imports, Available c := fun c hc => (h.imports c hc).1
  refine ⟨.built himports hbuild hu, ?_⟩
  obtain ⟨s⟩ := build_ok hbuild
  have hscope : ∀ c ∈ b.scope, c.Made := by
    refine fun c hc => (forall_mem_scope made_rootClass (fun i hi a ha => ?_) c hc).1
    obtain ⟨ds, hlin⟩ := (himports i hi).sound.lineage
    exact hlin.made_of_mem_chain (h.imports i hi).2 ha
  have hdrafts : ∀ d ∈ s.drafts, d.Made :=
    fun d hd => h.drafts d ((order_ok s.ordered).1.subset hd)
  obtain ⟨r, hr, hunit⟩ := s.exists_unitOf hu
  rw [(unitOf_ok hunit).1]
  exact resolveAll_made hscope hdrafts s.resolves r hr

end WellFormed

theorem Made.wellFormed {b : Builder} (h : b.Made) : b.WellFormed := by
  induction h with
  | start config => exact .start config
  | defineClass _ hd ih => exact ih.defineClass hd
  | importRoot _ ih => exact ih.importClass ⟨.root, made_rootClass⟩
  | importBuilt _ _ hbuild hu ih ih' => exact ih.importClass (ih'.built hbuild _ hu)
  | declareGlobal _ h ih => exact ih.declareGlobal h
  | declareFunction _ hf h ih => exact ih.declareFunction hf h

end Builder

end Module

end ClassForge

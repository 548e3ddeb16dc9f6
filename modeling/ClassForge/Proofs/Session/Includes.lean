import ClassForge.Proofs.Module.Contents
import ClassForge.Proofs.Module.Declarations
import ClassForge.Proofs.Module.Files
import ClassForge.Proofs.Module.Prototype
import ClassForge.Proofs.Session.EntryName
import Mathlib.Logic.Relation

/-!
# Headers within reach

A class is declared in the header of the module that it was built in. A module includes the headers
of the classes that its descriptor names, while its own classes may extend any class above those.
The header of a class further up is within reach all the same: the imported class was built on top
of it, so that the module which built the imported class has it, or reaches it in its turn.
-/

namespace ClassForge.Session

open C ClassForge.Class ClassForge.Module Output Relation

/-! ## What a session built -/

/-- A module that was built, with the classes that it imports. -/
structure Record where
  module : Module
  imports : List Built

/-- The modules that are built from descriptors, without those that are refused. -/
def records (s : Session) : List Descriptor → List Record
  | [] => []
  | d :: ds =>
    match s.attempt d, s.imported d.module d.imports with
    | (.ok module, s'), .ok imports => { module, imports } :: s'.records ds
    | (_, s'), _ => s'.records ds

/-- Behind the modules `before`, the class `a` that the module of `r` has or imports was built in
the module `n`: in the one at hand, or where a module in front has it that an import comes from. -/
inductive StemsFrom : List Record → Record → Class → Module → Prop where
  | own {before : List Record} {r : Record} {u : ClassUnit} (hu : u ∈ r.module.classes) :
    StemsFrom before r u.cls r.module
  | imported {earlier later : List Record} {r r' : Record} {x : Built} {a : Class} {n : Module}
    (hx : x ∈ r.imports) (hname : r'.module.name = x.module) (ha : a ∈ x.cls.chain)
    (h : StemsFrom earlier r' a n) : StemsFrom (earlier ++ r' :: later) r a n

/-- The header of `m` includes the header of `n`, one of the modules `before`. -/
def Includes (before : List Record) (m n : Module) : Prop :=
  n ∈ before.map (·.module) ∧ .includeLocal (n.name ++ ".h") ∈ header m

theorem records_cons_of_ok {s s' : Session} {d : Descriptor} {ds : List Descriptor} {m : Module}
    {imports : List Built} (hattempt : s.attempt d = (.ok m, s'))
    (himported : s.imported d.module d.imports = .ok imports) :
    s.records (d :: ds) = { module := m, imports } :: s'.records ds := by
  rw [records, hattempt, himported]

theorem records_cons_of_error {s s' : Session} {d : Descriptor} {ds : List Descriptor}
    {e : SessionError} (hattempt : s.attempt d = (.error e, s')) :
    s.records (d :: ds) = s'.records ds := by
  rw [records, hattempt]

/-- The modules on record are those that were built. -/
theorem records_module (s : Session) (ds : List Descriptor) :
    (s.records ds).map (·.module) = s.builtModules ds := by
  induction ds generalizing s with
  | nil => rfl
  | cons d ds ih =>
    rcases hattempt : s.attempt d with ⟨e | m, s'⟩
    · rw [records_cons_of_error hattempt, ih]
      simp [builtModules, History.outcomes, hattempt, Except.toOption]
    · obtain ⟨imports, -, -, -, himported, -⟩ := attempt_eq_ok.1 hattempt
      rw [records_cons_of_ok hattempt himported, List.map_cons, ih]
      simp [builtModules, History.outcomes, hattempt, Except.toOption]

/-! ## What a module includes -/

theorem foldl_name {α : Type} {f : Config → α → Config} (hf : ∀ c a, (f c a).name = c.name)
    (as : List α) (c : Config) : (as.foldl f c).name = c.name := by
  induction as generalizing c with
  | nil => rfl
  | cons a as ih => rw [List.foldl_cons, ih, hf]

theorem includeLocal_spec (c : Config) (header : String) :
    (c.includeLocal header).name = c.name ∧ header ∈ (c.includeLocal header).locals ∧
      c.locals ⊆ (c.includeLocal header).locals := by
  unfold Config.includeLocal
  split
  next hmem => exact ⟨rfl, hmem, fun _ => id⟩
  next => exact ⟨rfl, by simp, by simp⟩

theorem config_name (d : Descriptor) (imports : List Built) :
    (includeHeaders d.config imports).name = d.module := by
  have hlibrary : ∀ (c : Config) (header : String), (c.includeLibrary header).name = c.name :=
    fun _ _ => rfl
  have hdevice : ∀ c : Config, (c.withCoprocessor d.coprocessor).name = c.name := by
    intro c
    unfold Config.withCoprocessor
    split
    · exact foldl_name hlibrary _ _
    · rfl
  rw [includeHeaders, foldl_name fun _ _ => (includeLocal_spec ..).1, Descriptor.config,
    foldl_name fun _ _ => (includeLocal_spec ..).1, foldl_name hlibrary, hdevice]

theorem name_of_attempt {s s' : Session} {d : Descriptor} {m : Module}
    (h : s.attempt d = (.ok m, s')) : m.name = d.module := by
  obtain ⟨imports, b, -, -, -, hb, hm, -, -⟩ := attempt_eq_ok.1 h
  obtain ⟨stages⟩ := build_ok hm
  rw [Module.name, stages.config, (builderFor_ok hb).1, config_name]

/-- The header of each import is among those that the module includes. -/
theorem mem_locals_includeHeaders {c : Config} {imports : List Built} {header : String}
    (h : header ∈ c.locals ∨ ∃ x ∈ imports, header = x.module ++ ".h") :
    header ∈ (includeHeaders c imports).locals := by
  induction imports generalizing c with
  | nil => simpa [includeHeaders] using h
  | cons x xs ih =>
    obtain ⟨-, hnew, hold⟩ := includeLocal_spec c (x.module ++ ".h")
    refine ih (h.elim (fun hmem => .inl (hold hmem)) ?_)
    rintro ⟨x', hx', rfl⟩
    rcases List.mem_cons.1 hx' with rfl | hx'
    · exact .inl hnew
    · exact .inr ⟨x', hx', rfl⟩

theorem includeLocal_mem_header {m : Module} {header : String} (hkind : m.kind = .user)
    (h : header ∈ m.config.locals) : .includeLocal header ∈ Output.header m := by
  have hlocals : header ∈ m.localIncludes := by
    rw [Module.localIncludes, hkind]
    exact mem_keepFirst.2 (List.mem_cons_of_mem _ h)
  have hincluded : .includeLocal header ∈ includeItems m := by
    have hmem : .includeLocal header ∈ m.localIncludes.map Item.includeLocal :=
      List.mem_map_of_mem hlocals
    refine List.mem_append_right _ ?_
    rw [paragraph, if_neg (by simpa using List.ne_nil_of_mem hlocals)]
    exact List.mem_append_left _ hmem
  simp [Output.header, hincluded]

/-- A class that was built in one of the modules `rs`. -/
def Recorded (rs : List Record) (x : Built) : Prop :=
  Available x.cls ∧ ∃ r ∈ rs, r.module.name = x.module ∧ ∃ u ∈ r.module.classes, u.cls = x.cls

/-- What holds of a session behind the modules `rs`: it knows their names, and its classes were
built in them. -/
structure Follows (s : Session) (rs : List Record) : Prop where
  names : ∀ r ∈ rs, r.module.name ∈ s.modules
  classes : ∀ x ∈ s.classes, Recorded rs x

/-- What holds of a module that is built behind the modules `before`: it has a name of its own, and
each class that it imports was built in one of them, whose header it includes. -/
structure Founded (before : List Record) (r : Record) : Prop where
  builds : ∃ b : Builder, b.imports = r.imports.map (·.cls) ∧ b.build = .ok r.module
  fresh : r.module.name ∉ before.map (·.module.name)
  recorded : ∀ x ∈ r.imports, Recorded before x
  includes : ∀ x ∈ r.imports, .includeLocal (x.module ++ ".h") ∈ header r.module

theorem follows_empty : Follows {} [] where
  names _ hr := absurd hr List.not_mem_nil
  classes _ hx := absurd hx List.not_mem_nil

theorem Recorded.mono {rs rs' : List Record} {x : Built} (h : Recorded rs x) (hsub : rs ⊆ rs') :
    Recorded rs' x :=
  ⟨h.1, h.2.imp fun _ ⟨hr, hrest⟩ => ⟨hsub hr, hrest⟩⟩

theorem Founded.available {before : List Record} {r : Record} (h : Founded before r) {b : Builder}
    (himports : b.imports = r.imports.map (·.cls)) : ∀ c ∈ b.imports, Available c := by
  intro c hc
  rw [himports] at hc
  obtain ⟨x, hx, rfl⟩ := List.mem_map.1 hc
  exact (h.recorded x hx).1

/-- A module that is built is founded on those in front, and the session behind it follows. -/
theorem Follows.build {s s' : Session} {rs : List Record} {d : Descriptor} {m : Module}
    {imports : List Built} (h : Follows s rs) (hattempt : s.attempt d = (.ok m, s'))
    (himported : s.imported d.module d.imports = .ok imports) :
    Founded rs { module := m, imports } ∧ Follows s' (rs ++ [{ module := m, imports }]) := by
  have hname := name_of_attempt hattempt
  obtain ⟨imports', b, owners, hnew, himported', hb, hm, -, rfl⟩ := attempt_eq_ok.1 hattempt
  obtain rfl := Except.ok.inj (himported.symm.trans himported')
  obtain ⟨hconfig, himports⟩ := builderFor_ok hb
  obtain ⟨stages⟩ := build_ok hm
  -- imports were found among the classes of earlier modules, which have records by the invariant
  have hfounded : Founded rs { module := m, imports } := {
    builds := ⟨b, himports, hm⟩
    fresh := fun hmem => by
      obtain ⟨r, hr, heq⟩ := List.mem_map.1 hmem
      have heq : r.module.name = m.name := heq
      exact hnew (hname ▸ heq ▸ h.names r hr)
    recorded := fun x hx => h.classes x (imported_ok himported x hx)
    includes := fun x hx => includeLocal_mem_header stages.kind (by
      rw [stages.config, hconfig]
      exact mem_locals_includeHeaders (.inr ⟨x, hx, rfl⟩)) }
  -- the new record stands for the new module and for the classes that it adds
  refine ⟨hfounded, fun r hr => ?_, fun x hx => ?_⟩
  · rcases List.mem_append.1 hr with hold | hlast
    · exact List.mem_cons_of_mem _ (h.names r hold)
    · obtain rfl := List.mem_singleton.1 hlast
      exact List.mem_cons_self
  · rcases List.mem_append.1 hx with hlast | hold
    · obtain ⟨u, hu, rfl⟩ := List.mem_map.1 (List.mem_reverse.1 hlast)
      exact ⟨.built (hfounded.available himports) hm hu, _,
        List.mem_append_right _ List.mem_cons_self, rfl, u, hu, rfl⟩
    · exact (h.classes x hold).mono (List.subset_append_left _ _)

/-- So each module of a session is founded on those in front. -/
theorem Follows.founded {s : Session} {rs : List Record} (h : Follows s rs) {ds : List Descriptor}
    {before after : List Record} {r : Record} (hsplit : s.records ds = before ++ r :: after) :
    Founded (rs ++ before) r := by
  -- by the modules to build; one that is refused adds no record and leaves the session as it is
  induction ds generalizing s rs before with
  | nil => exact absurd hsplit (by simp [records])
  | cons d ds ih =>
    rcases hattempt : s.attempt d with ⟨e | m, s'⟩
    · obtain rfl := reverts_buildModule d s e s' hattempt
      rw [records_cons_of_error hattempt] at hsplit
      exact ih h hsplit
    · obtain ⟨imports, -, -, -, himported, -⟩ := attempt_eq_ok.1 hattempt
      rw [records_cons_of_ok hattempt himported] at hsplit
      obtain ⟨hfounded, hfollows⟩ := h.build hattempt himported
      -- the record is that of the first module, or it comes behind it
      cases before with
      | nil =>
        obtain ⟨rfl, -⟩ := List.cons.inj hsplit
        rwa [List.append_nil]
      | cons r' before =>
        obtain ⟨rfl, hrest⟩ := List.cons.inj hsplit
        have hfounded := ih hfollows hrest
        rwa [List.append_assoc] at hfounded

/-- A list of modules each of which is founded on those in front. -/
def Chronicle (rs : List Record) : Prop :=
  ∀ before r after, rs = before ++ r :: after → Founded before r

theorem chronicle_records (ds : List Descriptor) : Chronicle (({} : Session).records ds) :=
  fun _ _ _ hsplit => follows_empty.founded hsplit

theorem Chronicle.of_append {before after : List Record} (h : Chronicle (before ++ after)) :
    Chronicle before := by
  intro earlier r later hsplit
  refine h earlier r (later ++ after) ?_
  rw [hsplit, List.append_assoc, List.cons_append]

/-! ## Reaching a header -/

/-- From a module the header of any module that it has a class from is within reach. -/
theorem StemsFrom.reaches {before : List Record} {r : Record} {a : Class} {n : Module}
    (h : StemsFrom before r a n) (hbefore : Chronicle before) (hr : Founded before r) :
    ReflTransGen (Includes before) r.module n ∧
      ∃ earlier r', Founded earlier r' ∧ r'.module = n ∧ ∃ u ∈ n.classes, u.cls = a := by
  induction h with
  | own hu => exact ⟨.refl, _, _, hr, rfl, _, hu, rfl⟩
  | @imported earlier later r r' x a n hx hname ha _ ih =>
    obtain ⟨hreach, hdeclares⟩ := ih hbefore.of_append (hbefore earlier r' later rfl)
    have hincludes : Includes (earlier ++ r' :: later) r.module r'.module := by
      refine ⟨List.mem_map.2 ⟨r', List.mem_append_right _ List.mem_cons_self, rfl⟩, ?_⟩
      rw [hname]
      exact hr.includes x hx
    -- it reaches the header through modules that are in front of it, and so in front of this one
    have hmono : ∀ m m', Includes earlier m m' → Includes (earlier ++ r' :: later) m m' :=
      fun m m' hincludes => ⟨by simp [hincludes.1], hincludes.2⟩
    exact ⟨.head hincludes (ReflTransGen.mono hmono _ _ hreach), hdeclares⟩

namespace Sample

/-- A class that adds nothing to the one that it extends. -/
def bare (name : String) (base : Class) : Class :=
  .derived
    { name
      object := .extension name base.object []
      metaclass := .extension (Name.metaclass name) base.metaclass []
      methods := base.methods
      coprocessor := false
      isAbstract := true }
    base

/-- A module of one such class, which extends the root or what another module has. -/
structure Layer where
  module : String
  cls : String
  base? : Option Built

namespace Layer

/-- The class. -/
def result (x : Layer) : Class :=
  bare x.cls ((x.base?.map (·.cls)).getD rootClass)

def descriptor (x : Layer) : Descriptor where
  module := x.module
  imports := x.base?.toList.map (·.cls.name)
  classes :=
    [{ name := x.cls
       superclasses := x.base?.toList.map (·.cls.name)
       isAbstract := true }]

def builder (x : Layer) : Builder where
  config := includeHeaders { name := x.module } x.base?.toList
  drafts :=
    [{ name := x.cls
       superclasses := x.base?.toList.map (·.cls.name)
       isAbstract := true }]
  imports := x.base?.toList.map (·.cls)

end Layer

def vessels : Layer := ⟨"vessels", "Vessel", none⟩

def tanks : Layer := ⟨"tanks", "Tank", some ⟨"vessels", vessels.result⟩⟩

def silos : Layer := ⟨"silos", "Silo", some ⟨"tanks", tanks.result⟩⟩

/-- Each of them on top of the one in front. -/
def layers : List Layer := [vessels, tanks, silos]

def shapes : Layer := ⟨"shapes", "Shape", none⟩

def squares : Layer := ⟨"Shapes", "Square", some ⟨"shapes", shapes.result⟩⟩

/-- Besides, two modules whose names differ in case only, one on top of the other. -/
def stacked : List Layer := layers ++ [shapes, squares]

theorem builderFor_layer : ∀ x ∈ stacked,
    builderFor x.descriptor x.base?.toList = .ok x.builder := by
  intro x hx
  obtain ⟨drafts, hdrafts, rfl⟩ := exists_of_any_toOption
    (x := do
      let scope ← ModelError.ofType (x.descriptor.scope (importedNames x.base?.toList))
      x.descriptor.drafts scope)
    (P := (· = x.builder.drafts)) (by revert x; decide +kernel)
  obtain ⟨scope, hscope, hdrafts⟩ := bind_eq_ok.1 hdrafts
  exact bind_eq_ok.2 ⟨scope, hscope, bind_eq_ok.2 ⟨_, rfl, bind_eq_ok.2 ⟨_, hdrafts, rfl⟩⟩⟩

theorem build_layer : ∀ x ∈ stacked, ∃ m, x.builder.build = .ok m ∧ m.name = x.module ∧
    m.classes.map (·.cls) = [x.result] ∧
    m.classes.map (fun u => (u.name, unitEntryNames u)) = [(x.cls, [])] := by
  intro x hx
  have hsorted : sortByName x.builder.scope = x.builder.scope := by
    apply List.mergeSort_of_pairwise
    revert x
    decide +kernel
  refine exists_of_any_toOption ?_
  rw [Builder.build, hsorted]
  clear hsorted
  revert x
  decide +kernel

theorem imported_layer {x : Layer} {s : Session} (hbase : ∀ y ∈ x.base?, s.classes.head? = some y) :
    s.imported x.descriptor.module x.descriptor.imports = .ok x.base?.toList := by
  rw [Layer.descriptor]
  cases hx : x.base? with
  | none => rfl
  | some y =>
    have hbuilt : s.built? y.cls.name = some y := by
      obtain ⟨ys, hys⟩ := List.head?_eq_some_iff.1 (hbase y hx)
      simp [built?, hys]
    simp [imported, hbuilt, Except.map]

theorem attempt_layer {x : Layer} (hx : x ∈ stacked) {s : Session} (hnew : x.module ∉ s.modules)
    (hbase : ∀ y ∈ x.base?, s.classes.head? = some y) :
    ∃ m s', s.attempt x.descriptor = (.ok m, s') ∧ m.classes.map (·.cls) = [x.result] ∧
      s'.modules = x.module :: s.modules ∧ s'.classes = ⟨x.module, x.result⟩ :: s.classes := by
  obtain ⟨m, hbuild, hname, hclasses, hunits⟩ := build_layer x hx
  have hclaims : s.owners.claimAll (m.classes.map fun u => (u.name, unitEntryNames u))
      = .ok s.owners := by
    rw [hunits]
    rfl
  have hbuilt : m.classes.map (fun u => { module := m.name, cls := u.cls : Built })
      = [⟨x.module, x.result⟩] := by
    rw [hname, ← List.map_singleton (f := fun c : Class => (⟨x.module, c⟩ : Built)), ← hclasses,
      List.map_map]
    rfl
  refine ⟨m, _, attempt_eq_ok.2
    ⟨_, _, _, hnew, imported_layer hbase, builderFor_layer x hx, hbuild, hclaims, rfl⟩, hclasses,
    ?_, ?_⟩
  · rw [add, hname]
  · rw [add, hbuilt]
    rfl

end Sample

end ClassForge.Session

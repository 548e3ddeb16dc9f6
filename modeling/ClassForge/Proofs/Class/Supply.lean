import ClassForge.Proofs.Class.Lineage
import ClassForge.Proofs.Keyed

/-!
# The nearest definition wins

What a slot holds is what the nearest class of the chain supplies for it: the implementation that
its draft defines, or the generated copy routine of a class with device copies, or, where no draft
supplies any, the root's.
-/

namespace ClassForge.Class

/-! ## What one draft supplies -/

/-- What the class of a draft supplies for a method: what the draft implements it with, else the
generated routine, for the methods that copy objects of a class with device copies. -/
def Draft.supply? (d : Draft) (method : String) : Option Implementation :=
  ((d.methods.find? (·.name == method)).bind (implementationOf d.name)).or
    (if d.coprocessor ∧ method ∈ copyMethods then
      some { symbol := Name.implementation d.name method, providedBy := d.name, source := .generated }
    else none)

/-- What the nearest of several classes supplies for a method, the root coming last. The drafts are
those of the classes below the root, nearest first. -/
def nearest? (ds : List Draft) (method : String) : Option Implementation :=
  (ds.findSome? (·.supply? method)).or ((rootClass.method? method).bind (·.implementation))

/-- A nearer draft goes first. -/
theorem nearest?_cons (d : Draft) (ds : List Draft) (method : String) :
    nearest? (d :: ds) method = (d.supply? method).or (nearest? ds method) := by
  simp only [nearest?, List.findSome?_cons]
  cases d.supply? method <;> rfl

theorem providedBy_of_implementationOf {cls : String} {f : MethodDef} {i : Implementation}
    (h : implementationOf cls f = some i) : i.providedBy = cls := by
  unfold implementationOf at h
  split at h
  · cases h
  · cases h
    rfl
  · cases h
    rfl

theorem Draft.providedBy_of_supply? {d : Draft} {method : String} {i : Implementation}
    (h : d.supply? method = some i) : i.providedBy = d.name := by
  rcases Option.or_eq_some_iff.1 h with hdef | ⟨-, hcopy⟩
  · obtain ⟨f, -, hf⟩ := Option.bind_eq_some_iff.1 hdef
    exact providedBy_of_implementationOf hf
  · split at hcopy
    · cases hcopy
      rfl
    · cases hcopy

/-- What a definition implements is never empty-handed: a verbatim one supplies its text. -/
theorem implementationOf_verbatim {cls text : String} {f : MethodDef}
    (h : f.supply = .verbatim text) :
    implementationOf cls f = some
      { symbol := Name.implementation cls f.name, providedBy := cls, source := .verbatim text } := by
  simp [implementationOf, h]

/-- A function that is defined from a body is named after the class that supplies it. -/
theorem symbol_of_nearest? {ds : List Draft} {method text : String} {i : Implementation}
    (hi : nearest? ds method = some i) (hsource : i.source = .verbatim text) :
    i.symbol = Name.implementation i.providedBy method := by
  -- from a draft of the lineage, or from the root, whose methods are all the runtime's
  rcases Option.or_eq_some_iff.1 hi with hdraft | ⟨-, hroot⟩
  · obtain ⟨d, -, hsupply⟩ := List.exists_of_findSome?_eq_some hdraft
    rcases Option.or_eq_some_iff.1 hsupply with hdef | ⟨-, hcopy⟩
    · obtain ⟨f, hfind, hf⟩ := Option.bind_eq_some_iff.1 hdef
      rw [← key_of_find? (f := MethodDef.name) hfind]
      unfold implementationOf at hf
      split at hf
      · cases hf
      · cases hf
        cases hsource
      · cases hf
        rfl
    · split at hcopy
      · cases hcopy
        cases hsource
      · cases hcopy
  · obtain ⟨m, hm, hmi⟩ := Option.bind_eq_some_iff.1 hroot
    have hall : ∀ m ∈ rootClass.methods, ∀ i ∈ m.implementation, i.source = .runtime := by decide
    rw [hall m (List.mem_of_find?_eq_some hm) i hmi] at hsource
    cases hsource

/-- A draft supplies what its author wrote, or the routine generated for a slot that copies
objects. -/
theorem Draft.source_of_supply? {d : Draft} {method : String} {i : Implementation}
    (h : d.supply? method = some i) :
    i.isUsers = true ∨ i.source = .generated ∧ d.coprocessor = true ∧ method ∈ copyMethods := by
  -- a definition of the author comes before the copy routine that would be generated
  rcases Option.or_eq_some_iff.1 h with hdef | ⟨-, hcopy⟩
  · obtain ⟨f, -, hf⟩ := Option.bind_eq_some_iff.1 hdef
    unfold implementationOf at hf
    split at hf
    · cases hf
    · cases hf
      exact .inl rfl
    · cases hf
      exact .inl rfl
  · split at hcopy
    next hslot =>
      cases hcopy
      exact .inr ⟨rfl, hslot⟩
    next => cases hcopy

/-! ## What a class leaves alone -/

theorem Method.boundBy_eq_self {cls : String} {ds : List MethodDef} {m : Method}
    (h : (m.boundBy cls ds).providedBy cls = false) : m.boundBy cls ds = m := by
  cases hdef : (ds.find? (·.name == m.name)).bind (implementationOf cls) with
  | none => simp [boundBy, hdef]
  | some i =>
    obtain ⟨f, -, hf⟩ := Option.bind_eq_some_iff.1 hdef
    simp [boundBy, bind, hdef, providedBy, providedBy_of_implementationOf hf] at h

theorem Draft.copied_eq_self {d : Draft} {m : Method}
    (h : (d.copied m).providedBy d.name = false) : d.copied m = m := by
  by_cases hslot : d.coprocessor = true ∧ m.introducedBy = Name.rootObject ∧
      m.name ∈ copyMethods ∧ (!m.providedBy d.name) = true
  · rw [copied, if_pos hslot.1, Method.bindCopy, if_pos hslot.2] at h
    simp [Method.providedBy] at h
  · by_cases hco : d.coprocessor = true
    · rw [copied, if_pos hco, Method.bindCopy, if_neg fun hc => hslot ⟨hco, hc⟩]
    · rw [copied, if_neg hco]

/-- An inherited entry that the class of a draft does not implement is as it was. -/
theorem Draft.inherit_eq_self {d : Draft} {m : Method}
    (h : (d.inherit m).providedBy d.name = false) : d.inherit m = m := by
  unfold inherit at h ⊢
  have hcopied := copied_eq_self h
  rw [hcopied] at h ⊢
  exact Method.boundBy_eq_self h

/-- An entry that a class introduces is empty unless the class implements it. -/
theorem Draft.implementation_of_mem_added {d : Draft} {inherited : List Method} {m : Method}
    (hm : m ∈ d.added inherited) (h : m.providedBy d.name = false) : m.implementation = none := by
  obtain ⟨f, -, rfl⟩ := List.mem_map.1 hm
  have hcopied := copied_eq_self h
  rw [hcopied] at h ⊢
  cases hf : implementationOf d.name f with
  | none => exact hf
  | some i =>
    simp [Method.providedBy, MethodDef.introduce, hf, providedBy_of_implementationOf hf] at h

/-! ## What a class takes over -/

/-- A slot that copies objects is implemented by a class with device copies once its copy routine is
bound. -/
theorem Draft.providedBy_copied {d : Draft} (hco : d.coprocessor = true) {m : Method}
    (hroot : (d.copied m).introducedBy = Name.rootObject)
    (hcopy : (d.copied m).name ∈ copyMethods) : (d.copied m).providedBy d.name = true := by
  have hintro : m.introducedBy = Name.rootObject :=
    (congrArg Face.introducedBy (d.face_copied m)).symm.trans hroot
  rw [d.name_copied] at hcopy
  rw [copied, if_pos hco, Method.bindCopy]
  by_cases hprovided : m.providedBy d.name = true
  · rw [if_neg (by simp [hprovided])]
    exact hprovided
  · rw [if_pos ⟨hintro, hcopy, by simpa using hprovided⟩]
    simp [Method.providedBy]

/-- An inherited entry that another class supplies gets the implementation that the draft supplies,
if there is one. -/
theorem Draft.implementation_inherit {d : Draft} {m : Method}
    (hroot : m.name ∈ copyMethods → m.introducedBy = Name.rootObject)
    (hother : m.providedBy d.name = false) :
    (d.inherit m).implementation = (d.supply? m.name).or m.implementation := by
  have hbound : (m.boundBy d.name d.methods).implementation
      = ((d.methods.find? (·.name == m.name)).bind (implementationOf d.name)).or
        m.implementation := rfl
  cases hdef : (d.methods.find? (·.name == m.name)).bind (implementationOf d.name) with
  | some i =>
    -- the draft's own definition fills the slot, so no routine is generated for it
    have hprovided : (m.boundBy d.name d.methods).providedBy d.name = true := by
      obtain ⟨f, -, hf⟩ := Option.bind_eq_some_iff.1 hdef
      simp [Method.providedBy, hbound, hdef, providedBy_of_implementationOf hf]
    have hsame : d.inherit m = m.boundBy d.name d.methods := by
      unfold inherit copied
      split
      · simp [Method.bindCopy, hprovided]
      · rfl
    rw [hsame, hbound, supply?, hdef]
    simp
  | none =>
    have hsame : m.boundBy d.name d.methods = m := by
      unfold Method.boundBy
      rw [hdef, Method.bind_none]
    rw [inherit, hsame, supply?, hdef]
    by_cases hcopy : d.coprocessor = true ∧ m.name ∈ copyMethods
    · simp [copied, Method.bindCopy, hcopy, hroot hcopy.2, hother]
    · by_cases hco : d.coprocessor = true
      · have hname : m.name ∉ copyMethods := fun hn => hcopy ⟨hco, hn⟩
        simp [copied, Method.bindCopy, hname]
      · simp [copied, hco]

/-! ## What a chain supplies -/

namespace Lineage

variable {ds : List Draft} {c : Class}

/-- The slots that copy objects are the root's. -/
theorem introducedBy_of_mem_copyMethods (h : Lineage ds c) {m : Method} (hm : m ∈ c.methods)
    (hcopy : m.name ∈ copyMethods) : m.introducedBy = Name.rootObject := by
  have hroot : ∀ n ∈ copyMethods, ∃ m₀ ∈ rootClass.methods,
      m₀.name = n ∧ m₀.introducedBy = Name.rootObject := by decide
  obtain ⟨m₀, hm₀, hname, hintro⟩ := hroot _ hcopy
  have hface := h.face_eq_of_name h.rootClass_mem_chain hm₀ hm hname.symm
  exact (congrArg Face.introducedBy hface).trans hintro

/-- A class with device copies implements the slots that copy objects itself, if only by what is
generated for it. -/
theorem exists_copyImplementation {d : Draft} (h : Lineage (d :: ds) c) (hco : d.coprocessor = true)
    {method : String} (hcopy : method ∈ copyMethods) :
    ∃ i, (c.method? method).bind (·.implementation) = some i ∧ i.providedBy = c.name := by
  obtain ⟨base, hbase, hd⟩ := h.last
  obtain ⟨m, hm, rfl⟩ := h.exists_of_mem_copyMethods hcopy
  have hroot := h.introducedBy_of_mem_copyMethods hm hcopy
  -- inherited or redefined, a copy method ends up with what this class provides
  have hprovided : m.providedBy c.name = true := by
    rw [hd.name]
    rcases hd.mem_methods.1 hm with ⟨m₀, -, rfl⟩ | hadded
    · exact Draft.providedBy_copied hco hroot hcopy
    · obtain ⟨f, -, rfl⟩ := List.mem_map.1 hadded
      exact Draft.providedBy_copied hco hroot hcopy
  obtain ⟨i, himpl, hprovider⟩ : ∃ i, m.implementation = some i ∧ i.providedBy = c.name := by
    simpa [Method.providedBy, Option.any_eq_true] using hprovided
  exact ⟨i, by rw [h.method?_of_mem hm, Option.bind_some, himpl], hprovider⟩

/-- The classes of a chain have the names of their drafts; the root is at the end. -/
theorem map_name_chain (h : Lineage ds c) :
    c.chain.map (·.name) = ds.map (·.name) ++ [Name.rootObject] := by
  induction h with
  | root => rfl
  | derive _ hres ih =>
    have hd := (EntryPoints.resolve_ok hres).1
    rw [hd.chain_eq, List.map_cons, ih, hd.name]
    rfl

/-- What the nearest class supplies is supplied by a class of the chain. -/
theorem providedBy_of_nearest? (h : Lineage ds c) {method : String} {i : Implementation}
    (hi : nearest? ds method = some i) : i.providedBy ∈ c.chain.map (·.name) := by
  rw [h.map_name_chain]
  rcases Option.or_eq_some_iff.1 hi with hdraft | ⟨-, hroot⟩
  · obtain ⟨d, hd, hsupply⟩ := List.exists_of_findSome?_eq_some hdraft
    rw [Draft.providedBy_of_supply? hsupply]
    exact List.mem_append_left _ (List.mem_map_of_mem hd)
  · obtain ⟨m, hm, hmi⟩ := Option.bind_eq_some_iff.1 hroot
    have hall : ∀ m ∈ rootClass.methods, ∀ i ∈ m.implementation,
        i.providedBy = Name.rootObject := by decide
    rw [hall m (List.mem_of_find?_eq_some hm) i hmi]
    exact List.mem_append_right _ (List.mem_singleton_self _)

/-- What a class does not implement itself is as the class above has it. -/
theorem implementation_of_not_provided (h : Lineage ds c) {d : Draft} {r : Class}
    (hd : d.Derives c r) {m : Method} (hm : m ∈ r.methods) (hother : m.providedBy d.name = false) :
    (c.method? m.name).bind (·.implementation) = m.implementation := by
  rcases hd.mem_methods.1 hm with ⟨m₀, hm₀, rfl⟩ | hadded
  · rw [Draft.name_inherit, h.method?_of_mem hm₀, Draft.inherit_eq_self hother, Option.bind_some]
  · have hnone : c.method? m.name = none := by
      obtain ⟨f, hf, rfl⟩ := List.mem_map.1 hadded
      rw [Draft.name_copied]
      exact find?_key_eq_none.2 (mem_newDefs.1 hf).2
    rw [hnone, Draft.implementation_of_mem_added hadded hother]
    rfl

/-- Along a chain without repeated names, a table holds for each method name what the nearest class
supplies; a name that the table does not have is supplied by none. -/
theorem implementation_eq_nearest? (h : Lineage ds c) (hnames : (c.chain.map (·.name)).Nodup)
    (method : String) : (c.method? method).bind (·.implementation) = nearest? ds method := by
  induction h generalizing method with
  | root => rfl
  | @derive ds base e d r hbase hres ih =>
    have hd := (EntryPoints.resolve_ok hres).1
    rw [hd.chain_eq] at hnames
    obtain ⟨hfresh, hrest⟩ := List.nodup_cons.1 (List.map_cons ▸ hnames)
    have ih := ih hrest
    rw [nearest?_cons, hd.method?_eq, ← ih method]
    cases hfind : base.method? method with
    | some m =>
      have hm : m ∈ base.methods := List.mem_of_find?_eq_some hfind
      have hname : m.name = method := key_of_find? (f := Method.name) hfind
      -- the class's name is new in the chain, so no entry above can be its own already
      have hother : m.providedBy d.name = false := by
        cases himpl : m.implementation with
        | none => simp [Method.providedBy, himpl]
        | some i =>
          have hnear : nearest? ds method = some i := by
            rw [← ih method, hfind, Option.bind_some, himpl]
          have hmem := hbase.providedBy_of_nearest? hnear
          have hne : i.providedBy ≠ d.name := fun heq => hfresh (by rwa [hd.name, ← heq])
          simpa [Method.providedBy, himpl] using hne
      have himpl := Draft.implementation_inherit
        (fun hcopy => hbase.introducedBy_of_mem_copyMethods hm hcopy) hother
      simp [himpl, hname]
    | none =>
      have hnone : ∀ m ∈ base.methods, m.name ≠ method :=
        (find?_key_eq_none (f := Method.name)).1 hfind
      -- every table has the slots that copy objects, so this is none of them
      have hcopy : method ∉ copyMethods := fun hmem => by
        obtain ⟨m, hm, hname⟩ := hbase.exists_of_mem_copyMethods hmem
        exact hnone m hm hname
      rw [hbase.added_eq, List.find?_map]
      simp only [Function.comp_def, MethodDef.name_introduce, find?_newDefs hnone]
      cases hdef : d.methods.find? (·.name == method) with
      | none => simp [Draft.supply?, hcopy, hdef]
      | some f => simp [Draft.supply?, hcopy, hdef, MethodDef.introduce]

theorem implementation_of_mem (h : Lineage ds c) (hnames : (c.chain.map (·.name)).Nodup)
    {m : Method} (hm : m ∈ c.methods) : m.implementation = nearest? ds m.name := by
  rw [← h.implementation_eq_nearest? hnames, h.method?_of_mem hm, Option.bind_some]

/-- What a class implements is what its draft supplies. -/
theorem supply?_of_implemented {d : Draft} (h : Lineage (d :: ds) c)
    (hnames : (c.chain.map (·.name)).Nodup) {m : Method} (hm : m ∈ c.implemented) :
    ∃ i, m.implementation = some i ∧ d.supply? m.name = some i := by
  obtain ⟨hmem, hprovided⟩ := List.mem_filter.1 hm
  obtain ⟨i, himpl, hprovider⟩ : ∃ i, m.implementation = some i ∧ i.providedBy = c.name := by
    simpa [Method.providedBy, Option.any_eq_true] using hprovided
  have hnear := h.implementation_of_mem hnames hmem
  rw [himpl, nearest?_cons] at hnear
  refine ⟨i, himpl, ?_⟩
  cases hsupply : d.supply? m.name with
  | some j => rw [hnear, hsupply, Option.some_or]
  | none =>
    -- what a class above supplies has the name of that class
    obtain ⟨base, hbase, hd⟩ := h.last
    rw [hsupply, Option.none_or] at hnear
    have habove := hbase.providedBy_of_nearest? hnear.symm
    rw [hd.chain_eq, List.map_cons, List.nodup_cons, ← hprovider] at hnames
    exact absurd habove hnames.1

/-- A body that a draft gives is what the entry of its method holds. -/
theorem exists_of_verbatim {d : Draft} (h : Lineage (d :: ds) c)
    (hnames : (c.chain.map (·.name)).Nodup) {f : MethodDef} (hf : f ∈ d.methods) {text : String}
    (hv : f.supply = .verbatim text) : ∃ m ∈ c.methods, m.name = f.name ∧
      m.implementation = some
        { symbol := Name.implementation d.name f.name, providedBy := d.name
          source := .verbatim text } := by
  obtain ⟨base, -, hd⟩ := h.last
  have hfind : d.methods.find? (·.name == f.name) = some f := find?_key_of_mem hd.defs_nodup hf
  have hnearest : nearest? (d :: ds) f.name = implementationOf d.name f := by
    simp [nearest?, Draft.supply?, hfind, implementationOf_verbatim hv]
  rw [implementationOf_verbatim hv, ← h.implementation_eq_nearest? hnames] at hnearest
  obtain ⟨m, hm, himpl⟩ := Option.bind_eq_some_iff.1 hnearest
  exact ⟨m, List.mem_of_find?_eq_some hm, key_of_find? (f := Method.name) hm, himpl⟩

end Lineage

end ClassForge.Class

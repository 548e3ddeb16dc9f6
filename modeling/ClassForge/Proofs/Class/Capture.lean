import ClassForge.Proofs.C.Token
import ClassForge.Proofs.Class.Reached

/-!
# Names that parameters capture

The body of an entry point mixes names of its own with those of its method's parameters. It declares
one variable, calls functions that are declared outside of it, and passes its parameters on. The
names of the variables are reserved, so no parameter has them. Those of the functions are not: a
parameter may have one, and the body then names the parameter where it means the function. So may
keywords of C be names of parameters, which no argument can be passed on by.
-/

namespace ClassForge.Class

open C Text

namespace EntryPoints

/-! ### Tokens of the bodies -/

section Body

variable {owner : String} {s : Signature}

/-- The tokens of a declaration that looks the class of an object up. -/
def lookupTokens (owner name function object : String) : List Token :=
  [.word "const", .word "struct", .word (Name.metaclass owner), .mark '*', .word name, .mark '=',
    .mark '(', .word "const", .word "struct", .word (Name.metaclass owner), .mark '*', .mark ')',
    .word function, .mark '(', .word object, .mark ')', .mark ';']

/-- The tokens of the slot in the class struct that a variable points to. -/
def slotTokens (name method : String) : List Token :=
  [.word name, .mark '-', .mark '>', .word (Name.slot method)]

/-- The tokens of the slot's call. -/
def callTokens (name : String) (s : Signature) : List Token :=
  slotTokens name s.name ++ .mark '(' :: (listed (s.params.map (·.name)) ++ [.mark ')', .mark ';'])

theorem tokens_lookup {name function object : String} (howner : isIdentifier owner = true)
    (hname : isIdentifier name = true) (hfunction : isIdentifier function = true)
    (hobject : isIdentifier object = true) (cs : List Code) :
    tokens (Code.bodyText (lookupCode owner name (function ++ "(" ++ object ++ ")") :: cs)) =
      lookupTokens owner name function object ++ tokens (Code.bodyText cs) := by
  have hmetaclass := isIdentifier_metaclass howner
  rw [lookupCode, tokens_bodyText_line]
  refine congrArg (· ++ tokens (Code.bodyText cs)) ?_
  simp [tokens, tokensFrom, tokensFrom_word hmetaclass, tokensFrom_word hname,
    tokensFrom_word hfunction, tokensFrom_word hobject, isNameChar, isBlank, endWord, lookupTokens]

theorem isIdentifier_slot {method : String} (h : isIdentifier method = true) :
    isIdentifier (Name.slot method) = true :=
  isIdentifier_prefixed (by decide) h

theorem tokens_call {name : String} (hname : isIdentifier name = true)
    (hmethod : isIdentifier s.name = true) (hparams : ∀ p ∈ s.params, isIdentifier p.name = true) :
    tokens (s.callText (name ++ "->" ++ Name.slot s.name) ++ ";") = callTokens name s := by
  have hnames : ∀ n ∈ s.params.map (·.name), isIdentifier n = true := List.forall_mem_map.2 hparams
  simp [tokens, Signature.callText, tokensFrom, tokensFrom_word hname,
    tokensFrom_word (isIdentifier_slot hmethod), tokensFrom_listed hnames, isNameChar, isBlank,
    endWord, slotTokens, callTokens, -String.toList_intercalate]

theorem tokens_return (text : String) :
    tokens ("return " ++ text) = .word "return" :: tokens text := by
  rw [tokens, String.toList_append]
  rfl

theorem tokens_returnCode {name : String} (hname : isIdentifier name = true)
    (hmethod : isIdentifier s.name = true) (hparams : ∀ p ∈ s.params, isIdentifier p.name = true) :
    tokens (Code.bodyText (returnCode s (name ++ "->" ++ Name.slot s.name))) =
      if s.returnsVoid then callTokens name s ++ [.word "return", .mark ';']
      else .word "return" :: callTokens name s := by
  have hcall := tokens_call hname hmethod hparams
  unfold returnCode
  split
  · rw [tokens_bodyText_line, tokens_bodyText_line, hcall]
    rfl
  · rw [tokens_bodyText_line, String.append_assoc, tokens_return, hcall]
    exact List.append_nil _

/-! ### Names in the bodies -/

theorem namesFrom_lookup {name function : String} (hname : isName name = true)
    (hfunction : isName function = true) (object : String) (ts : List Token) :
    namesFrom .anything (lookupTokens owner name function object ++ ts) =
      name :: function :: ([object].filter isName ++ namesFrom .anything ts) := by
  have hconst : isName "const" = false := by decide
  have hstruct : isName "struct" = false := by decide
  have htag : "struct" ∈ tagKeywords := by decide
  have hnotTag : "const" ∉ tagKeywords := by decide
  simp [lookupTokens, namesFrom_word, namesFrom_mark, namesFrom_tag, Place.behind, hname, hfunction,
    hconst, hstruct, htag, hnotTag]

theorem namesFrom_slot {name : String} (hname : isName name = true) (method : String)
    (ts : List Token) :
    namesFrom .anything (slotTokens name method ++ ts) = name :: namesFrom .anything ts := by
  simp [slotTokens, namesFrom_word, namesFrom_mark, namesFrom_member, Place.behind, hname]

theorem namesFrom_returnCode {name : String} (hname : isName name = true)
    (hmethod : isIdentifier s.name = true) (hparams : ∀ p ∈ s.params, isIdentifier p.name = true) :
    namesFrom .anything (tokens (Code.bodyText (returnCode s (name ++ "->" ++ Name.slot s.name)))) =
      name :: (s.params.map (·.name)).filter isName := by
  have hreturn : isName "return" = false := by decide
  have hnotTag : "return" ∉ tagKeywords := by decide
  rw [tokens_returnCode (isIdentifier_of_isName hname) hmethod hparams]
  split <;> simp [callTokens, namesFrom_slot hname, namesFrom_mark, namesFrom_word, Place.behind,
    namesFrom_listed, namesFrom_nil, hreturn, hnotTag]

theorem star_notMem_returnCode {name : String} (hname : isName name = true)
    (hmethod : isIdentifier s.name = true) (hparams : ∀ p ∈ s.params, isIdentifier p.name = true) :
    .mark '*' ∉ tokens (Code.bodyText (returnCode s (name ++ "->" ++ Name.slot s.name))) := by
  rw [tokens_returnCode (isIdentifier_of_isName hname) hmethod hparams]
  have hlisted := star_notMem_listed (s.params.map (·.name))
  split <;> simp [callTokens, slotTokens, hlisted]

theorem declaredNames_lookup {name function object : String} {ts : List Token}
    (h : .mark '*' ∉ ts) :
    declaredNames (lookupTokens owner name function object ++ ts) = [name] := by
  simp [lookupTokens, declaredNames, declaredNames_eq_nil h]

/-- A delegator's body declares one variable. What it names are that variable, the functions that it
calls, its object and its parameters; an object whose name is a keyword is missed, as are parameters
of this kind. -/
theorem names_delegatorCode {self : String} (howner : isIdentifier owner = true)
    (hmethod : isIdentifier s.name = true) (hparams : ∀ p ∈ s.params, isIdentifier p.name = true)
    (hself : isIdentifier self = true) :
    let ts := tokens (Code.bodyText (delegatorCode owner s self))
    declaredNames ts = ["m_class"] ∧
      namesFrom .anything ts = ["m_class", "myriad_class_of"] ++ [self].filter isName ++
        ["assert", "m_class", "m_class"] ++ (s.params.map (·.name)).filter isName := by
  have hname : isName "m_class" = true := by decide
  have hlookup : isName "myriad_class_of" = true := by decide
  have hassert : isName "assert" = true := by decide
  have hnotTag : "assert" ∉ tagKeywords := by decide
  have hline : tokens ("assert(" ++ ("m_class->" ++ Name.slot s.name) ++ ");") =
      .word "assert" :: .mark '(' :: (slotTokens "m_class" s.name ++ [.mark ')', .mark ';']) := by
    simp [tokens, tokensFrom, tokensFrom_word (isIdentifier_slot hmethod), isNameChar, isBlank,
      endWord, slotTokens]
  have hbody : tokens (Code.bodyText (delegatorCode owner s self)) =
      lookupTokens owner "m_class" "myriad_class_of" self ++
        (.word "assert" :: .mark '(' :: (slotTokens "m_class" s.name ++ [.mark ')', .mark ';']) ++
          tokens (Code.bodyText (returnCode s ("m_class" ++ "->" ++ Name.slot s.name)))) := by
    rw [← hline, ← tokens_bodyText_line,
      ← tokens_lookup howner (by decide) (by decide) hself]
    rfl
  have hstar := star_notMem_returnCode hname hmethod hparams
  have hcall := namesFrom_returnCode hname hmethod hparams
  rw [hbody]
  -- of the call only its names matter from here on
  generalize tokens (Code.bodyText (returnCode s _)) = call at hstar hcall ⊢
  refine ⟨declaredNames_lookup (by simp [slotTokens, hstar]), ?_⟩
  simp [namesFrom_lookup hname hlookup, namesFrom_word, namesFrom_mark, namesFrom_slot hname,
    Place.behind, hcall, hassert, hnotTag]

/-- So it is with a super-delegator, whose object is the parameter for the class. -/
theorem names_superCode (howner : isIdentifier owner = true)
    (hmethod : isIdentifier s.name = true) (hparams : ∀ p ∈ s.params, isIdentifier p.name = true) :
    let ts := tokens (Code.bodyText (superCode owner s))
    declaredNames ts = ["superclass"] ∧
      namesFrom .anything ts = ["superclass", "myriad_super", Name.classParam, "superclass"] ++
        (s.params.map (·.name)).filter isName := by
  have hname : isName "superclass" = true := by decide
  have hlookup : isName "myriad_super" = true := by decide
  have hclass : isName Name.classParam = true := by decide
  have hbody : tokens (Code.bodyText (superCode owner s)) =
      lookupTokens owner "superclass" "myriad_super" Name.classParam ++
        tokens (Code.bodyText (returnCode s ("superclass" ++ "->" ++ Name.slot s.name))) := by
    rw [← tokens_lookup howner (by decide) (by decide) (by decide)]
    rfl
  rw [hbody]
  refine ⟨declaredNames_lookup (star_notMem_returnCode hname hmethod hparams), ?_⟩
  rw [namesFrom_lookup hname hlookup, namesFrom_returnCode hname hmethod hparams]
  simp [hclass]

end Body

/-! ### What the names stand for -/

/-- The parameters that an entry point takes in front of those of its method. -/
def leading : PieceKind → List Variable
  | .typedef | .delegator => []
  | .superDelegator => [classParam]

/-- What an entry point's body calls besides the slot. `assert` counts as a function here, although
its header may define it as a macro. -/
def called : PieceKind → List String
  | .typedef => []
  | .delegator => ["myriad_class_of", "assert"]
  | .superDelegator => ["myriad_super"]

/-- What the names in an entry point's body are to stand for, if its method has `n` parameters: a
variable is declared, the runtime is asked for a class, and the slot in that class is called with
all parameters of the method, in order. -/
def meant (n : Nat) : PieceKind → List Referent
  | .typedef => []
  | .delegator =>
    [.declared "m_class", .outside "myriad_class_of", .parameter 0, .outside "assert",
      .declared "m_class", .declared "m_class"] ++ (List.range n).map .parameter
  | .superDelegator =>
    [.declared "superclass", .outside "myriad_super", .parameter 0, .declared "superclass"] ++
      (List.range n).map fun i => .parameter (i + 1)

theorem meant_delegator_iff {self : String} {others : List String}
    (hnodup : (self :: others).Nodup) (hlocal : "m_class" ∉ self :: others) :
    (["m_class", "myriad_class_of"] ++ [self].filter isName ++ ["assert", "m_class", "m_class"] ++
        (self :: others).filter isName).map (referent (self :: others) ["m_class"]) =
      meant (self :: others).length .delegator ↔
    (∀ w ∈ called .delegator, w ∉ self :: others) ∧ ∀ w ∈ self :: others, isName w = true := by
  have hlocals : ∀ n ∈ self :: others, n ∉ ["m_class"] := fun n hn hmem =>
    hlocal (List.mem_singleton.1 hmem ▸ hn)
  have hobject : referent (self :: others) ["m_class"] self = .parameter 0 := by
    simp [referent, hlocals self List.mem_cons_self]
  have hpassed := map_filter_isName_eq_iff (map_referent hnodup hlocals)
  have hself : self ∈ self :: others := List.mem_cons_self
  generalize self :: others = names at *
  have hdeclared : referent names ["m_class"] "m_class" = .declared "m_class" :=
    referent_eq_declared (by decide)
  have hlookup : referent names ["m_class"] "myriad_class_of" = _ ↔ _ :=
    referent_eq_outside (by decide)
  have hassert : referent names ["m_class"] "assert" = _ ↔ _ := referent_eq_outside (by decide)
  cases hname : isName self with
  | false =>
    -- the object is missed, so a name of the variable stands where `assert` is meant
    have hmissed : ¬∀ w ∈ names, isName w = true := fun hall => by simp [hall self hself] at hname
    simp [hname, meant, hdeclared, hmissed]
  | true => simp [hname, meant, hdeclared, hobject, called, hlookup, hassert, hpassed, and_assoc]

theorem meant_superDelegator_iff {names : List String}
    (hnodup : (Name.classParam :: names).Nodup) (hlocal : "superclass" ∉ names) :
    (["superclass", "myriad_super", Name.classParam, "superclass"] ++ names.filter isName).map
        (referent (Name.classParam :: names) ["superclass"]) = meant names.length .superDelegator ↔
      (∀ w ∈ called .superDelegator, w ∉ names) ∧ ∀ w ∈ names, isName w = true := by
  have hlocals : ∀ n ∈ Name.classParam :: names, n ∉ ["superclass"] :=
    List.forall_mem_cons.2
      ⟨by decide, fun n hn hmem => hlocal (List.mem_singleton.1 hmem ▸ hn)⟩
  have hclass : referent (Name.classParam :: names) ["superclass"] Name.classParam =
      .parameter 0 := by
    simp [referent, hlocals _ List.mem_cons_self]
  have hdeclared : referent (Name.classParam :: names) ["superclass"] "superclass" =
      .declared "superclass" := referent_eq_declared (by decide)
  have hlookup : referent (Name.classParam :: names) ["superclass"] "myriad_super" = _ ↔
      "myriad_super" ∉ names :=
    (referent_eq_outside (by decide)).trans (by simp [Name.classParam])
  -- the class comes first, so each parameter of the method stands one place later
  have hshifted : names.map (referent (Name.classParam :: names) ["superclass"]) =
      (List.range names.length).map fun i => .parameter (i + 1) := by
    have hall := map_referent hnodup hlocals
    rw [List.length_cons, List.range_succ_eq_map, List.map_cons, List.map_cons,
      List.map_map] at hall
    exact (List.cons.inj hall).2
  simp [meant, hdeclared, hclass, called, hlookup, map_filter_isName_eq_iff hshifted]

/-- The names in an entry point's body stand for what they are meant to exactly if no parameter of
the method is a keyword or has the name of something that the body calls. No parameter has the name
of anything else in the body. -/
def MeantUnlessCaptured (kind : PieceKind) (g : FunctionDef) : Prop :=
  ∃ params, g.signature.params = leading kind ++ params ∧
    (∀ p ∈ params, p.name ∉ Name.reserved) ∧
    (g.referents = meant params.length kind ↔
      ∀ p ∈ params, p.name ∉ called kind ∧ p.name ∉ keywords)

theorem MeantUnlessCaptured.referents_eq {kind : PieceKind} {g : FunctionDef}
    {params : List Variable} (h : MeantUnlessCaptured kind g)
    (hparams : g.signature.params = leading kind ++ params)
    (hfree : ∀ p ∈ params, p.name ∉ called kind ∧ p.name ∉ keywords) :
    g.referents = meant params.length kind := by
  obtain ⟨own, hown, -, hiff⟩ := h
  obtain rfl := List.append_cancel_left (hown.symm.trans hparams)
  exact hiff.2 hfree

namespace Request.Written

variable {r : Request}

theorem forall_names_iff (h : r.Written) (kind : PieceKind) :
    ((∀ w ∈ called kind, w ∉ r.method.params.map (·.name)) ∧
        ∀ w ∈ r.method.params.map (·.name), isName w = true) ↔
      ∀ p ∈ r.method.params, p.name ∉ called kind ∧ p.name ∉ keywords := by
  have hname : ∀ p ∈ r.method.params, isName p.name = true ↔ p.name ∉ keywords := fun p hp => by
    simp [isName, h.isIdentifier_param p hp]
  rw [List.forall_mem_map, forall₂_congr hname]
  constructor
  · rintro ⟨hcalled, hkeywords⟩ p hp
    exact ⟨fun hmem => hcalled p.name hmem (List.mem_map_of_mem hp), hkeywords p hp⟩
  · intro hall
    refine ⟨fun w hw hmem => ?_, fun p hp => (hall p hp).2⟩
    obtain ⟨p, hp, rfl⟩ := List.mem_map.1 hmem
    exact (hall p hp).1 hw

theorem notMem_names (h : r.Written) {name : String} (hname : name ∈ Name.reserved) :
    name ∉ r.method.params.map (·.name) := by
  intro hmem
  obtain ⟨p, hp, rfl⟩ := List.mem_map.1 hmem
  exact h.notMem_reserved p hp hname

theorem meant_delegator (h : r.Written) {self : Variable} (hself : r.method.self? = some self) :
    MeantUnlessCaptured .delegator (r.delegator self) := by
  obtain ⟨others, hothers⟩ := Signature.exists_of_self? hself
  have hobject := h.isIdentifier_param self (hothers ▸ List.mem_cons_self)
  obtain ⟨hlocals, hnames⟩ :=
    names_delegatorCode h.owner h.isIdentifier_name h.isIdentifier_param hobject
  have hreferents : (r.delegator self).referents =
      (["m_class", "myriad_class_of"] ++ [self.name].filter isName ++
        ["assert", "m_class", "m_class"] ++ (r.method.params.map (·.name)).filter isName).map
          (referent (r.method.params.map (·.name)) ["m_class"]) := by
    rw [← hnames, ← hlocals]
    rfl
  refine ⟨r.method.params, rfl, h.notMem_reserved, ?_⟩
  rw [hreferents, ← h.forall_names_iff, ← List.length_map (·.name)]
  have hnodup := h.nodup_names
  have hlocal : "m_class" ∉ r.method.params.map (·.name) := h.notMem_names (by decide)
  rw [hothers, List.map_cons] at hnodup hlocal ⊢
  exact meant_delegator_iff hnodup hlocal

theorem meant_superDelegator (h : r.Written) :
    MeantUnlessCaptured .superDelegator r.superDelegator := by
  obtain ⟨hlocals, hnames⟩ := names_superCode h.owner h.isIdentifier_name h.isIdentifier_param
  have hreferents : r.superDelegator.referents =
      (["superclass", "myriad_super", Name.classParam, "superclass"] ++
        (r.method.params.map (·.name)).filter isName).map
          (referent (Name.classParam :: r.method.params.map (·.name)) ["superclass"]) := by
    rw [← hnames, ← hlocals]
    rfl
  refine ⟨r.method.params, rfl, h.notMem_reserved, ?_⟩
  rw [hreferents, ← h.forall_names_iff, ← List.length_map (·.name)]
  exact meant_superDelegator_iff
    (List.nodup_cons.2 ⟨h.notMem_names (by decide), h.nodup_names⟩) (h.notMem_names (by decide))

end Request.Written

theorem Given.meant {kind : PieceKind} {g : FunctionDef} (h : Given kind g) :
    MeantUnlessCaptured kind g := by
  obtain ⟨q, self, hq, hself, hg⟩ := h.cases
  rcases hg with ⟨rfl, rfl⟩ | ⟨rfl, rfl⟩
  · exact hq.meant_delegator hself
  · exact hq.meant_superDelegator

/-- The first request for a function is given one with the parameters of its own method. -/
theorem exists_answer {e : EntryPoints} {r : Request} (hr : r.Written) (hkind : r.kind ≠ .typedef)
    (hself : r.method.self?.isSome = true) (hnew : e.remembered? r.subject = none) :
    ∃ g, (e.answer r).1 = .ok (.function g) ∧
      g.signature.params = leading r.kind ++ r.method.params := by
  obtain ⟨self, hself⟩ := Option.isSome_iff_exists.1 hself
  have hcheck : checkMethod r.owner r.method = .ok self :=
    checkMethod_eq_ok.2 ⟨⟨by rw [hself]; rfl, hr.notMem_reserved⟩, hself⟩
  rw [answer_fst, hnew, Request.reply, hcheck]
  obtain ⟨kind, owner, m⟩ := r
  cases kind with
  | typedef => exact absurd rfl hkind
  | delegator => exact ⟨_, rfl, rfl⟩
  | superDelegator => exact ⟨_, rfl, rfl⟩

/-- Whatever was asked for before, take a function that is given out for a method whose definition
was accepted, or one of a method that a class introduces. No parameter of the method has the name of
a variable that the body declares or of the parameter in front. The body looks the class up in the
runtime and passes all arguments on exactly if, besides, no parameter has the name of something that
the body calls or of a keyword. A function that is given out for the first time has the parameters
of the method that it is given out for. -/
theorem referents_meant_iff {e : EntryPoints} (he : e.Reached) :
    (∀ r : Request, r.Written →
      (∀ g, (e.answer r).1 = .ok (.function g) → MeantUnlessCaptured r.kind g) ∧
        (e.answer r).2.Reached) ∧
    (∀ (d : Draft) (base : Class), d.Written →
      (∀ r, (e.resolve d base).1 = .ok r → ∀ x ∈ r.entries,
        MeantUnlessCaptured .delegator x.delegator ∧
          MeantUnlessCaptured .superDelegator x.superDelegator) ∧
        (e.resolve d base).2.Reached) ∧
    ∀ r : Request, r.Written → r.kind ≠ .typedef → r.method.self?.isSome = true →
      e.remembered? r.subject = none →
      ∃ g, (e.answer r).1 = .ok (.function g) ∧
        g.signature.params = leading r.kind ++ r.method.params := by
  refine ⟨fun r hr => ⟨fun g hg => ?_, he.answer hr⟩, fun d base hd => ?_,
    fun r hr => exists_answer hr⟩
  · exact Given.meant ⟨e, r, he, hr, rfl, hg⟩
  · obtain ⟨hgiven, hreached⟩ := he.resolve hd (Prod.mk.eta (p := e.resolve d base)).symm
    exact ⟨fun r hr x hx => ⟨(hgiven r hr x hx).delegator.meant,
      (hgiven r hr x hx).superDelegator.meant⟩, hreached⟩

namespace Sample

/-- A method that takes its object and a pointer more. -/
def adopt (name : String) : MethodDef where
  signature :=
    { name := "adopt"
      params := [receiver, { name, type := .void, pointer := true }]
      returns := .void
      role := .method }
  supply := .nothing

/-- A class that introduces the method. -/
def basket (name : String) : Draft where
  name := "Basket"
  methods := [adopt name]
  isAbstract := true

theorem written_adopt : (adopt "other").Written where
  signature := .declare (Signature.declare_eq_ok.2 ⟨rfl, rfl, rfl, fun _ => rfl, rfl⟩)
  params := List.forall_mem_cons.2 ⟨rfl, List.forall_mem_singleton.2 rfl⟩
  defined := ⟨.normal, none, rfl⟩

end Sample

open EntryPoints.Sample

theorem referents_meant_iff_sample :
    (∃ r, (({} : EntryPoints).resolve (basket "other") rootClass).1 = .ok r ∧ ∃ x ∈ r.entries,
      x.delegator.referents = meant 2 .delegator ∧
      x.superDelegator.referents = meant 2 .superDelegator) ∧
    ∃ g, (({} : EntryPoints).answer ⟨.superDelegator, "Basket", (adopt "other").signature⟩).1 =
      .ok (.function g) ∧ g.referents = meant 2 .superDelegator := by
  obtain ⟨hrequests, hclasses, hnew⟩ := referents_meant_iff .empty
  have hfree : ∀ kind, ∀ p ∈ (adopt "other").signature.params,
      p.name ∉ called kind ∧ p.name ∉ keywords := by
    intro kind
    cases kind <;> decide
  have hrequest : Request.Written ⟨.superDelegator, "Basket", (adopt "other").signature⟩ :=
    ⟨by decide, adopt "other", written_adopt, rfl⟩
  have hbasket : (basket "other").Written :=
    ⟨fun _ hv => absurd hv List.not_mem_nil, List.forall_mem_singleton.2 written_adopt⟩
  -- the parameter's name is none that the bodies use, so both mean what they should
  have hresolved : ∃ r, (({} : EntryPoints).resolve (basket "other") rootClass).1 = .ok r ∧
      ∃ x ∈ r.entries,
        x.delegator.signature.params = leading .delegator ++ (adopt "other").signature.params ∧
        x.superDelegator.signature.params =
          leading .superDelegator ++ (adopt "other").signature.params := by
    refine exists_of_any_toOption ?_
    decide +kernel
  obtain ⟨r, hr, x, hx, hparams, hsuper⟩ := hresolved
  obtain ⟨hdelegator, hsuperDelegator⟩ := (hclasses _ rootClass hbasket).1 r hr x hx
  obtain ⟨g, hg, hown⟩ := hnew _ hrequest nofun rfl rfl
  have hmeant := (hrequests _ hrequest).1 g hg
  exact ⟨⟨r, hr, x, hx, hdelegator.referents_eq hparams (hfree _),
    hsuperDelegator.referents_eq hsuper (hfree _)⟩, g, hg, hmeant.referents_eq hown (hfree _)⟩

/-- The name of the function that looks a class up is accepted for a parameter. Where the delegator
means the function, the name stands for the parameter. -/
theorem adopt_captures_lookup :
    MethodDef.define (adopt "myriad_class_of").signature .normal none =
        .ok (adopt "myriad_class_of") ∧
      ∃ r, (({} : EntryPoints).resolve (basket "myriad_class_of") rootClass).1 = .ok r ∧
        ∃ x ∈ r.entries, x.delegator.referents =
          [.declared "m_class", .parameter 1, .parameter 0, .outside "assert", .declared "m_class",
            .declared "m_class", .parameter 0, .parameter 1] := by
  refine ⟨rfl, exists_of_any_toOption ?_⟩
  decide +kernel

end EntryPoints

end ClassForge.Class

import ClassForge.Proofs.C.Code
import ClassForge.Proofs.C.Identifier

/-!
# What names in a body stand for

A body is cut into tokens. A word among them is a name of the ordinary name space if it is no
keyword, no tag and no member. Such a name stands for the variable that the body declares under it,
else for the parameter of that name, else for something outside of the function.

This is for bodies of one block, without literals, comments and labels.
-/

namespace ClassForge.C

open Text

/-! ### Tokens -/

/-- A token, as far as names are concerned. -/
inductive Token where
  | word (text : String)
  /-- A character that is neither blank nor part of a word. -/
  | mark (c : Char)
deriving Repr, DecidableEq

/-- The word that ends here, if there is one. -/
def endWord (word : List Char) : List Token :=
  if word.isEmpty then [] else [.word (String.ofList word)]

/-- The tokens of a text in front of which a word has begun. -/
def tokensFrom (word : List Char) : List Char → List Token
  | [] => endWord word
  | c :: cs =>
    if isNameChar c then tokensFrom (word ++ [c]) cs
    else endWord word ++ (if isBlank c then [] else [.mark c]) ++ tokensFrom [] cs

/-- The tokens of a text. -/
def tokens (text : String) : List Token :=
  tokensFrom [] text.toList

theorem tokensFrom_append {word cs : List Char} (h : ∀ c ∈ cs, isNameChar c = true)
    (rest : List Char) : tokensFrom word (cs ++ rest) = tokensFrom (word ++ cs) rest := by
  induction cs generalizing word with
  | nil => rw [List.nil_append, List.append_nil]
  | cons c cs ih =>
    obtain ⟨hc, hcs⟩ := List.forall_mem_cons.1 h
    rw [List.cons_append, tokensFrom, if_pos hc, ih hcs, List.append_assoc]
    rfl

/-- An identifier is a word up to the next character that cannot stand in one. -/
theorem tokensFrom_word {name : String} (h : isIdentifier name = true) {c : Char}
    (hc : isNameChar c = false) (rest : List Char) :
    tokensFrom [] (name.toList ++ c :: rest) = .word name :: tokensFrom [] (c :: rest) := by
  have hend : endWord name.toList = [.word name] := by
    obtain ⟨d, ds, hname, -⟩ := exists_cons_of_isIdentifier h
    rw [endWord, String.ofList_toList, hname]
    rfl
  rw [tokensFrom_append fun d hd => isNameChar_of_mem h hd, List.nil_append, tokensFrom, tokensFrom,
    hc, hend]
  rfl

theorem tokensFrom_break (word cs cs' : List Char) :
    tokensFrom word (cs ++ '\n' :: cs') = tokensFrom word cs ++ tokensFrom [] cs' := by
  induction cs generalizing word with
  | nil =>
    rw [List.nil_append, tokensFrom, tokensFrom]
    exact congrArg (· ++ _) (List.append_nil _)
  | cons c cs ih =>
    rw [List.cons_append, tokensFrom, tokensFrom]
    split
    · exact ih _
    · rw [ih]
      simp only [List.append_assoc]

/-- No token goes across the end of a row. -/
theorem tokens_ended (rows : List String) : tokens (Code.ended rows) = rows.flatMap tokens := by
  induction rows with
  | nil => rfl
  | cons r rs ih =>
    rw [Code.ended_cons, tokens, String.toList_append, String.toList_append, List.append_assoc]
    exact (tokensFrom_break _ _ _).trans (congrArg _ ih)

theorem tokens_margin (depth : Nat) (s : String) :
    tokens (Writer.margin depth ++ s) = tokens s := by
  induction depth generalizing s with
  | zero => exact congrArg tokens String.empty_append
  | succ depth ih =>
    rw [Writer.margin, String.append_assoc, ih, tokens, String.toList_append]
    rfl

/-- The tokens of a body that starts with a line. -/
theorem tokens_bodyText_line (text : String) (cs : List Code) :
    tokens (Code.bodyText (.line text :: cs)) = tokens text ++ tokens (Code.bodyText cs) := by
  rw [Code.bodyText_eq, Code.bodyText_eq, tokens_ended, tokens_ended, Code.allRows,
    List.flatMap_append, Code.rows, List.flatMap_singleton, tokens_margin]

/-! ### Names of the ordinary name space -/

/-- The keywords that a tag follows. -/
def tagKeywords : List String := ["struct", "union", "enum"]

/-- The keywords of C11. -/
def keywords : List String :=
  tagKeywords ++
    ["auto", "break", "case", "char", "const", "continue", "default", "do", "double", "else",
     "extern", "float", "for", "goto", "if", "inline", "int", "long", "register", "restrict",
     "return", "short", "signed", "sizeof", "static", "switch", "typedef", "unsigned", "void",
     "volatile", "while", "_Alignas", "_Alignof", "_Atomic", "_Bool", "_Complex", "_Generic",
     "_Imaginary", "_Noreturn", "_Static_assert", "_Thread_local"]

/-- Whether a word can name something. -/
def isName (word : String) : Bool :=
  isIdentifier word && !keywords.contains word

/-- What may come next in a text. -/
inductive Place where
  | anything
  /-- The rest of an arrow. -/
  | arrow
  | tag
  | member
deriving Repr, DecidableEq

/-- What may come behind a character. -/
def Place.behind (place : Place) (c : Char) : Place :=
  if c = '.' then .member
  else if c = '-' then .arrow
  else if c = '>' ∧ place = .arrow then .member
  else .anything

/-- The names of the ordinary name space among tokens, in order. -/
def namesFrom (place : Place) : List Token → List String
  | [] => []
  | .mark c :: ts => namesFrom (place.behind c) ts
  | .word w :: ts =>
    if place = .tag ∨ place = .member then namesFrom .anything ts
    else if w ∈ tagKeywords then namesFrom .tag ts
    else if isName w then w :: namesFrom .anything ts
    else namesFrom .anything ts

/-- The pointers that a text declares with a value: names behind a type and a star, in front of an
equals sign. -/
def declaredNames : List Token → List String
  | .word _ :: .mark '*' :: .word name :: .mark '=' :: ts => name :: declaredNames ts
  | _ :: ts => declaredNames ts
  | [] => []

/-! ### Arguments of a call -/

/-- Words with commas between them. -/
def listed (names : List String) : List Token :=
  (names.map .word).intersperse (.mark ',')

theorem tokensFrom_listed {names : List String} (h : ∀ n ∈ names, isIdentifier n = true)
    (rest : List Char) : tokensFrom [] ((", ".intercalate names).toList ++ ')' :: rest)
      = listed names ++ tokensFrom [] (')' :: rest) := by
  rw [String.toList_intercalate]
  induction names with
  | nil => rfl
  | cons n ns ih =>
    obtain ⟨hn, hns⟩ := List.forall_mem_cons.1 h
    cases ns with
    | nil => simpa [listed] using tokensFrom_word hn (c := ')') rfl rest
    | cons n' ns =>
      -- the comma ends the name in front of it, and the blank is no token
      have hcomma : tokensFrom [] (',' :: ' ' ::
          (", ".toList.intercalate ((n' :: ns).map String.toList) ++ ')' :: rest))
            = .mark ',' :: (listed (n' :: ns) ++ tokensFrom [] (')' :: rest)) := by
        rw [← ih hns]
        rfl
      rw [List.map_cons, List.map_cons, List.intercalate_cons_cons, List.append_assoc,
        List.append_assoc]
      exact (tokensFrom_word hn (c := ',') rfl _).trans (congrArg _ hcomma)

theorem isName_of_mem_tagKeywords {w : String} (h : w ∈ tagKeywords) : isName w = false := by
  have hall : ∀ w ∈ tagKeywords, isName w = false := by decide
  exact hall w h

theorem isIdentifier_of_isName {w : String} (h : isName w = true) : isIdentifier w = true :=
  (Bool.and_eq_true_iff.1 h).1

section Names

variable {place : Place} {w : String} {c : Char} {ts : List Token}

theorem namesFrom_nil : namesFrom place [] = [] := rfl

theorem namesFrom_mark : namesFrom place (.mark c :: ts) = namesFrom (place.behind c) ts := rfl

theorem namesFrom_tag : namesFrom .tag (.word w :: ts) = namesFrom .anything ts := rfl

theorem namesFrom_member : namesFrom .member (.word w :: ts) = namesFrom .anything ts := rfl

/-- A word is passed over if it names nothing. -/
theorem namesFrom_word : namesFrom .anything (.word w :: ts) =
    [w].filter isName ++ namesFrom (if w ∈ tagKeywords then .tag else .anything) ts := by
  rw [namesFrom, if_neg (by decide)]
  split_ifs with htag hname
  · simp [isName_of_mem_tagKeywords htag]
  · simp [hname]
  · simp [hname]

end Names

theorem namesFrom_listed (names : List String) (ts : List Token) :
    namesFrom .anything (listed names ++ .mark ')' :: ts)
      = names.filter isName ++ namesFrom .anything ts := by
  induction names with
  | nil => rfl
  | cons n ns ih =>
    have hcons : (n :: ns).filter isName = [n].filter isName ++ ns.filter isName :=
      List.filter_append [n] ns
    cases ns with
    | nil =>
      refine namesFrom_word.trans ?_
      simp [namesFrom_mark, Place.behind]
    | cons n' ns =>
      rw [hcons, List.append_assoc, ← ih]
      refine namesFrom_word.trans ?_
      simp [namesFrom_mark, Place.behind, listed]

theorem declaredNames_eq_nil {ts : List Token} (h : .mark '*' ∉ ts) : declaredNames ts = [] := by
  fun_induction declaredNames ts with
  | case1 => simp at h
  | case2 t ts _ ih => exact ih (List.not_mem_of_not_mem_cons h)
  | case3 => rfl

theorem star_notMem_listed (names : List String) : .mark '*' ∉ listed names := by
  induction names with
  | nil => exact List.not_mem_nil
  | cons n ns ih =>
    cases ns with
    | nil => simp [listed]
    | cons n' ns => simpa [listed] using ih

/-! ### What names stand for -/

/-- What a name stands for. -/
inductive Referent where
  /-- A variable that the body declares. -/
  | declared (name : String)
  /-- The parameter with this number, from 0 on. -/
  | parameter (i : Nat)
  /-- Something that is declared outside of the function. -/
  | outside (name : String)
deriving Repr, DecidableEq

/-- What a name stands for in a body with these parameters that declares these variables. -/
def referent (params locals : List String) (name : String) : Referent :=
  if name ∈ locals then .declared name
  else if name ∈ params then .parameter (params.idxOf name)
  else .outside name

/-- What the names in a function's body stand for, in order. -/
def FunctionDef.referents (f : FunctionDef) : List Referent :=
  let ts := tokens f.body.text
  (namesFrom .anything ts).map
    (referent (f.signature.params.map (·.name)) (declaredNames ts))

section Referent

variable {params locals : List String}

theorem referent_eq_outside {name : String} (h : name ∉ locals) :
    referent params locals name = .outside name ↔ name ∉ params := by
  unfold referent
  split_ifs with hmem <;> simp [hmem]

theorem referent_eq_declared {name : String} (h : name ∈ locals) :
    referent params locals name = .declared name :=
  if_pos h

/-- Parameters that no variable of the body hides stand for themselves. -/
theorem map_referent (hnodup : params.Nodup) (hlocals : ∀ p ∈ params, p ∉ locals) :
    params.map (referent params locals) = (List.range params.length).map .parameter := by
  refine List.ext_getElem (by simp) fun i hi _ => ?_
  have hi : i < params.length := by simpa using hi
  have hmem : params[i] ∈ params := List.getElem_mem hi
  rw [List.getElem_map, List.getElem_map, List.getElem_range, referent, if_neg (hlocals _ hmem),
    if_pos hmem, hnodup.idxOf_getElem]

end Referent

/-- Words that are passed over are missed, so all of them must name something. -/
theorem map_filter_isName_eq_iff {α : Type} {words : List String} {f : String → α} {as : List α}
    (h : words.map f = as) :
    (words.filter isName).map f = as ↔ ∀ w ∈ words, isName w = true := by
  refine ⟨fun heq => ?_, fun hall => by rw [List.filter_eq_self.2 hall, h]⟩
  rw [← List.length_filter_eq_length_iff, ← List.length_map f, heq, ← h, List.length_map]

end ClassForge.C

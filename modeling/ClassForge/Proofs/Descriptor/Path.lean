import ClassForge.Descriptor.Shape
import ClassForge.Proofs.C.Identifier
import ClassForge.Proofs.Text.Words

/-!
# Paths in a descriptor

A path goes from key to key and from item to item. Its text can be read again: a point ends a key
with the indices behind it, and a bracket ends a key or an index, since no key of a descriptor has
either. The word for the whole descriptor is no key of it.
-/

namespace ClassForge.Descriptor

open C Text

/-- The value that a path leads to. -/
def valueAt? : Json → List Step → Option Json
  | v, [] => some v
  | .object members, .key k :: path => (members.lookup k).bind (valueAt? · path)
  | .array items, .index i :: path => items[i]?.bind (valueAt? · path)
  | _, _ :: _ => none

/-! ### Reading the text of a path -/

/-- A key with indices in brackets behind it. -/
def readPart (part : List Char) : List Step :=
  match pieces (· == '[') part with
  | [] => []
  | key :: indices =>
    .key (String.ofList key) ::
      indices.map fun digits => .index (Nat.ofDigitChars 10 digits.dropLast 0)

/-- The path that a text shows: keys with points between them, or the whole descriptor. -/
def readPath (text : String) : List Step :=
  if text = "descriptor" then [] else (pieces (· == '.') text.toList).flatMap readPart

/-- What the steps behind the first add to the text of a path. -/
def tailText : List Step → List Char
  | [] => []
  | .key k :: path => '.' :: (k.toList ++ tailText path)
  | .index i :: path => '[' :: (Nat.toDigits 10 i ++ ']' :: tailText path)

theorem toList_foldl_extend (path : List Step) {text : String} (h : text ≠ "") :
    (path.foldl Step.extend text).toList = text.toList ++ tailText path := by
  induction path generalizing text with
  | nil => simp [tailText]
  | cons step path ih =>
    have hempty : text.isEmpty = false := by simpa using h
    cases step with
    | key k =>
      rw [List.foldl_cons, Step.extend, hempty, if_neg Bool.false_ne_true, ih (by simp)]
      simp [tailText]
    | index i =>
      rw [List.foldl_cons, Step.extend, ih (by simp)]
      simp [tailText]

theorem toList_pathText {k : String} (hk : k ≠ "") (path : List Step) :
    (pathText (.key k :: path)).toList = k.toList ++ tailText path := by
  rw [← toList_foldl_extend path hk]
  rfl

theorem readPart_key {k : String} (hk : isIdentifier k = true) : readPart k.toList = [.key k] := by
  have hbracket : ∀ c ∈ k.toList, (c == '[') = false := fun c hc =>
    beq_false_of_ne (ne_of_mem_of_not_mem hc (notMem_of_isIdentifier hk rfl))
  rw [readPart, pieces_eq_singleton hbracket]
  simp

/-- An index more, behind the others. -/
theorem readPart_index (part : List Char) (i : Nat) :
    readPart (part ++ '[' :: (Nat.toDigits 10 i ++ [']'])) = readPart part ++ [.index i] := by
  have hdigits : ∀ c ∈ Nat.toDigits 10 i ++ [']'], (c == '[') = false := by
    intro c hc
    rcases List.mem_append.1 hc with hc | hc
    · have hdigit := Nat.isDigit_of_mem_toDigits (by decide) (by decide) hc
      refine beq_false_of_ne ?_
      rintro rfl
      cases hdigit
    · rw [List.mem_singleton.1 hc]
      rfl
  have hpieces : pieces (· == '[') (part ++ '[' :: (Nat.toDigits 10 i ++ [']'])) =
      pieces (· == '[') part ++ [Nat.toDigits 10 i ++ [']']] := by
    rw [pieces_append_cons rfl, pieces_eq_singleton hdigits]
  rw [readPart, readPart, hpieces]
  cases hpart : pieces (· == '[') part with
  | nil => exact absurd hpart (pieces_ne_nil _ _)
  | cons key indices => simp

theorem flatMap_readPart (path : List Step) (hkeys : ∀ k, .key k ∈ path → isIdentifier k = true)
    {part : List Char} (hpart : '.' ∉ part) :
    (pieces (· == '.') (part ++ tailText path)).flatMap readPart = readPart part ++ path := by
  have hclosed {part : List Char} (hpart : '.' ∉ part) : ∀ c ∈ part, (c == '.') = false :=
    fun c hc => beq_false_of_ne (ne_of_mem_of_not_mem hc hpart)
  induction path generalizing part with
  | nil => simp [tailText, pieces_eq_singleton (hclosed hpart)]
  | cons step path ih =>
    have hrest : ∀ k, .key k ∈ path → isIdentifier k = true :=
      fun k hk => hkeys k (List.mem_cons_of_mem _ hk)
    cases step with
    | key k =>
      have hk := hkeys k List.mem_cons_self
      rw [tailText, pieces_append_cons rfl, pieces_eq_singleton (hclosed hpart),
        List.flatMap_append, ih hrest (notMem_of_isIdentifier hk rfl), readPart_key hk]
      simp
    | index i =>
      -- the index belongs to the part that is being read
      have hmore : '.' ∉ part ++ '[' :: (Nat.toDigits 10 i ++ [']']) := by
        have hdigits : '.' ∉ Nat.toDigits 10 i := fun hc => by
          cases Nat.isDigit_of_mem_toDigits (by decide) (by decide) hc
        simp [hpart, hdigits]
      have hread := ih hrest hmore
      rw [readPart_index] at hread
      simpa [tailText] using hread

/-- A path of keys that are identifiers is read from its text, if it begins with a key and is not
the word for the whole descriptor. -/
theorem readPath_pathText {path : List Step} (hkeys : ∀ k, .key k ∈ path → isIdentifier k = true)
    (hfirst : ∀ step ∈ path.head?, ∃ k, step = .key k) (hne : path ≠ [.key "descriptor"]) :
    readPath (pathText path) = path := by
  cases path with
  | nil => rfl
  | cons step path =>
    obtain ⟨k, rfl⟩ := hfirst step rfl
    have hk := hkeys k List.mem_cons_self
    have hempty : k ≠ "" := by
      rintro rfl
      cases hk
    have hread : (pieces (· == '.') (pathText (.key k :: path)).toList).flatMap readPart =
        .key k :: path := by
      rw [toList_pathText hempty, flatMap_readPart path
        (fun k hk => hkeys k (List.mem_cons_of_mem _ hk)) (notMem_of_isIdentifier hk rfl),
        readPart_key hk]
      rfl
    have hword : pathText (.key k :: path) ≠ "descriptor" := by
      intro hword
      rw [hword] at hread
      exact hne hread.symm
    rw [readPath, if_neg hword, hread]

end ClassForge.Descriptor

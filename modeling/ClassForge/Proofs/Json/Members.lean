import ClassForge.Json.Reader

/-!
# The keys of values that were read

Where a key is repeated in a text its last value counts, so no object in a value that was read has
a key twice. The reader keeps the members of every object sorted, on the stack as in the values
that are complete, and that is what its steps preserve.
-/

namespace ClassForge.Json

/-- No object in the value has a key twice. -/
inductive KeysDistinct : Json → Prop where
  | null : KeysDistinct .null
  | bool (b : Bool) : KeysDistinct (.bool b)
  | number (text : String) : KeysDistinct (.number text)
  | string (s : String) : KeysDistinct (.string s)
  | array {items : List Json} (hitems : ∀ v ∈ items, KeysDistinct v) : KeysDistinct (.array items)
  | object {members : List (String × Json)} (hkeys : (members.map Prod.fst).Nodup)
      (hvalues : ∀ m ∈ members, KeysDistinct m.2) : KeysDistinct (.object members)

/-- Members in the order of their keys, no key twice, whose values have distinct keys too. -/
structure Sorted (members : List (String × Json)) : Prop where
  order : members.Pairwise (·.1 < ·.1)
  values : ∀ m ∈ members, m.2.KeysDistinct

theorem Sorted.keysDistinct {members : List (String × Json)} (h : Sorted members) :
    (object members).KeysDistinct := by
  refine .object (List.pairwise_map.2 (h.order.imp fun {a b} hlt heq => ?_)) h.values
  rw [heq] at hlt
  exact String.lt_irrefl _ hlt

theorem mem_insertMember {key : String} {v : Json} {members : List (String × Json)}
    {m : String × Json} (h : m ∈ insertMember key v members) : m = (key, v) ∨ m ∈ members := by
  fun_induction insertMember key v members with
  | case1 => exact .inl (List.mem_singleton.1 h)
  | case2 => exact List.mem_cons.1 h
  | case3 => exact (List.mem_cons.1 h).imp_right (List.mem_cons_of_mem _)
  | case4 k w ms _ _ ih =>
    rcases List.mem_cons.1 h with rfl | h
    · exact .inr List.mem_cons_self
    · exact (ih h).imp_right (List.mem_cons_of_mem _)

theorem Sorted.insertMember {members : List (String × Json)} (h : Sorted members) (key : String)
    {v : Json} (hv : v.KeysDistinct) : Sorted (insertMember key v members) := by
  refine ⟨?_, fun m hm => ?_⟩
  · have horder := h.order
    clear h
    -- the new key goes in front of the first one that is larger, or takes the place of its equal
    fun_induction Json.insertMember key v members with
    | case1 => exact List.pairwise_singleton _ _
    | case2 k w ms hlt =>
      refine List.pairwise_cons.2 ⟨fun m hm => ?_, horder⟩
      rcases List.mem_cons.1 hm with rfl | hm
      · exact hlt
      · exact String.lt_trans hlt ((List.pairwise_cons.1 horder).1 m hm)
    | case3 k w ms => exact List.pairwise_cons.2 (List.pairwise_cons.1 horder)
    | case4 k w ms hlt hne ih =>
      obtain ⟨hfirst, hrest⟩ := List.pairwise_cons.1 horder
      refine List.pairwise_cons.2 ⟨fun m hm => ?_, ih hrest⟩
      rcases mem_insertMember hm with rfl | hm
      · exact Std.lt_of_le_of_ne (String.not_lt.1 hlt) (Ne.symm hne)
      · exact hfirst m hm
  · rcases mem_insertMember hm with rfl | hm
    · exact hv
    · exact h.values m hm

/-! ### The reader -/

/-- What is kept of a container that is open. -/
def Frame.Sorted : Frame → Prop
  | array items => ∀ v ∈ items, v.KeysDistinct
  | object members _ => Json.Sorted members

/-- What the reader keeps, whatever may come next. -/
def State.Sorted : State → Prop
  | value stack | firstItem stack => ∀ f ∈ stack, f.Sorted
  | key stack members _ | colon stack members _ =>
    (∀ f ∈ stack, f.Sorted) ∧ Json.Sorted members
  | behind stack v => (∀ f ∈ stack, f.Sorted) ∧ v.KeysDistinct

theorem sorted_nil : Sorted [] :=
  ⟨.nil, by simp⟩

theorem State.Sorted.beginValue {stack : List Frame} {t : Token} {s : State}
    (hstack : ∀ f ∈ stack, f.Sorted) (h : beginValue stack t = some s) : s.Sorted := by
  unfold Json.beginValue at h
  split at h
  · cases h; exact ⟨hstack, .null⟩
  · cases h; exact ⟨hstack, .bool _⟩
  · cases h; exact ⟨hstack, .number _⟩
  · cases h; exact ⟨hstack, .string _⟩
  · split at h
    · cases h; exact hstack
    · cases h
  · split at h
    · cases h; exact ⟨hstack, sorted_nil⟩
    · cases h
  · cases h

theorem State.Sorted.step {s s' : State} {t : Token} (hs : s.Sorted) (h : s.step t = some s') :
    s'.Sorted := by
  -- only the step that ends a member writes to an object, and it does so by `insertMember`
  unfold State.step at h
  split at h
  · exact beginValue hs h
  · cases h
    exact ⟨hs, .array (by simp)⟩
  · exact beginValue (List.forall_mem_cons.2 ⟨by simp [Frame.Sorted], hs⟩) h
  · cases h
    exact hs
  · cases h
    exact ⟨hs.1, hs.2.keysDistinct⟩
  · cases h
    exact List.forall_mem_cons.2 ⟨hs.2, hs.1⟩
  · cases h
    obtain ⟨hstack, hv⟩ := hs
    obtain ⟨hitems, hstack⟩ := List.forall_mem_cons.1 hstack
    exact List.forall_mem_cons.2 ⟨List.forall_mem_cons.2 ⟨hv, hitems⟩, hstack⟩
  · cases h
    obtain ⟨hstack, hv⟩ := hs
    obtain ⟨hitems, hstack⟩ := List.forall_mem_cons.1 hstack
    exact ⟨hstack, .array fun w hw =>
      List.forall_mem_cons.2 ⟨hv, hitems⟩ w (List.mem_reverse.1 hw)⟩
  · cases h
    obtain ⟨hstack, hv⟩ := hs
    obtain ⟨hmembers, hstack⟩ := List.forall_mem_cons.1 hstack
    exact ⟨hstack, hmembers.insertMember _ hv⟩
  · cases h
    obtain ⟨hstack, hv⟩ := hs
    obtain ⟨hmembers, hstack⟩ := List.forall_mem_cons.1 hstack
    exact ⟨hstack, (hmembers.insertMember _ hv).keysDistinct⟩
  · cases h

theorem State.Sorted.run {ts : List Token} {s : State} {v : Json} (hs : s.Sorted)
    (h : s.run ts = some v) : v.KeysDistinct := by
  induction ts generalizing s with
  | nil =>
    unfold State.run at h
    split at h
    · cases h
      exact hs.2
    · cases h
  | cons t ts ih =>
    unfold State.run at h
    split at h
    · cases h
    next hstep => exact ih (hs.step hstep) h

/-- No object in a value that was read has a key twice. -/
theorem keysDistinct_of_parse? {text : String} {v : Json} (h : parse? text = some v) :
    v.KeysDistinct := by
  obtain ⟨ts, -, hrun⟩ := Option.bind_eq_some_iff.1 h
  have hstart : (State.value []).Sorted := by simp [State.Sorted]
  exact hstart.run hrun

end ClassForge.Json

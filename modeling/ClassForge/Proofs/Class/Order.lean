import ClassForge.Class.Order
import ClassForge.Proofs.Except
import ClassForge.Proofs.Keyed
import Mathlib.Data.List.Perm.Basic

/-!
# Ordering loses no draft

An order that is found is a rearrangement of the drafts. A climb splits the drafts not visited yet
into the path it takes and the rest; placing the paths one after the other uses all of them up.
-/

namespace ClassForge.Class

/-- Drafts that pass the check have names of their own, and extend at most one class each. -/
theorem checkNames_ok {known earlier : List String} {ds : List Draft}
    (h : checkNames known earlier ds = .ok ()) :
    (ds.map (·.name)).Nodup ∧
      ∀ d ∈ ds, d.superclasses.length ≤ 1 ∧ d.name ∉ known ∧ d.name ∉ earlier := by
  induction ds generalizing earlier with
  | nil => simp
  | cons d ds ih =>
    unfold checkNames at h
    split at h
    next => cases h
    next hsingle =>
      split at h
      next => cases h
      next hfresh =>
        obtain ⟨hnodup, hrest⟩ := ih h
        obtain ⟨hearlier, hknown⟩ := not_or.1 hfresh
        refine ⟨List.nodup_cons.2 ⟨fun hmem => ?_, hnodup⟩, ?_⟩
        · obtain ⟨x, hx, hname⟩ := List.mem_map.1 hmem
          exact (hrest x hx).2.2 (by simp [hname])
        · rintro x (_ | ⟨_, hx⟩)
          · exact ⟨by omega, hknown, hearlier⟩
          · obtain ⟨hsuper, hk, he⟩ := hrest x hx
            exact ⟨hsuper, hk, fun hmem => he (List.mem_append_left _ hmem)⟩

theorem checkSuperclasses_eq_ok {names : List String} {ds : List Draft} :
    checkSuperclasses names ds = .ok () ↔ ∀ d ∈ ds, d.superclass ∈ names := by
  induction ds with
  | nil => simp [checkSuperclasses]
  | cons d ds ih =>
    rw [checkSuperclasses, List.forall_mem_cons]
    split
    next h => rw [ih, and_iff_right h]
    next h => simp [h]

/-- Taking out the draft of a name takes out that draft alone. -/
theorem perm_cons_without {drafts : List Draft} {name : String} {d : Draft}
    (hnodup : (drafts.map (·.name)).Nodup) (hfind : drafts.find? (·.name == name) = some d) :
    drafts.Perm (d :: without drafts name) := by
  have hd : d ∈ drafts := List.mem_of_find?_eq_some hfind
  have hname : d.name = name := key_of_find? (f := Draft.name) hfind
  -- both lists are without repetition, so it is enough that they have the same members
  have hfilter : (without drafts name).Nodup := hnodup.of_map.filter _
  have hcons : (d :: without drafts name).Nodup :=
    List.nodup_cons.2 ⟨fun hmem => by simp [without, hname] at hmem, hfilter⟩
  refine (List.perm_ext_iff_of_nodup hnodup.of_map hcons).2 fun x => ?_
  constructor
  · intro hx
    by_cases hxn : x.name = name
    · rw [eq_of_key_eq hnodup hx hd (hxn.trans hname.symm)]
      exact List.mem_cons_self
    · exact List.mem_cons_of_mem _ (List.mem_filter.2 ⟨hx, by simpa using hxn⟩)
  · intro hx
    obtain rfl | hx := List.mem_cons.1 hx
    · exact hd
    · exact (List.mem_filter.1 hx).1

/-- A draft of the name is passed, and the climb goes on with the class that it extends. -/
theorem climb_some {unvisited : List Draft} {name : String} {d : Draft} (path : List Draft)
    (hfind : unvisited.find? (·.name == name) = some d) :
    climb unvisited path name = climb (without unvisited name) (path ++ [d]) d.superclass := by
  rw [climb]
  split
  next d' hfind' => rw [Option.some.inj (hfind'.symm.trans hfind)]
  next hnone =>
    rw [hfind] at hnone
    cases hnone

/-- Where there is none, the climb ends, or has come full circle. -/
theorem climb_none {unvisited : List Draft} {name : String} (path : List Draft)
    (hnone : unvisited.find? (·.name == name) = none) :
    climb unvisited path name
      = if path.any (·.name == name) then
          .error (.cyclicInheritance
            ((path.dropWhile (·.name != name)).map (·.name) ++ [name]))
        else .ok (path, unvisited) := by
  rw [climb]
  split
  next d hfind =>
    rw [hnone] at hfind
    cases hfind
  next => rfl

theorem names_without_nodup {drafts : List Draft} (hnodup : (drafts.map (·.name)).Nodup)
    (name : String) : ((without drafts name).map (·.name)).Nodup :=
  hnodup.sublist (List.filter_sublist.map _)

/-- A climb splits the drafts that are not visited yet into its path and the rest. -/
theorem climb_ok {unvisited path : List Draft} {name : String} {p rest : List Draft}
    (hnodup : (unvisited.map (·.name)).Nodup) (h : climb unvisited path name = .ok (p, rest)) :
    (p ++ rest).Perm (path ++ unvisited) ∧ path <+: p := by
  -- along the climb: the path so far and the drafts not visited are together always the same
  induction unvisited, path, name using climb.induct with
  | case1 unvisited path name d hfind ih =>
    rw [climb_some path hfind] at h
    obtain ⟨hperm, hprefix⟩ := ih (names_without_nodup hnodup name) h
    refine ⟨hperm.trans ?_, (List.prefix_append _ _).trans hprefix⟩
    rw [List.append_assoc, List.singleton_append]
    exact (perm_cons_without hnodup hfind).symm.append_left path
  | case2 unvisited path name hnone hcycle =>
    rw [climb_none path hnone, if_pos hcycle] at h
    cases h
  | case3 unvisited path name hnone hcycle =>
    rw [climb_none path hnone, if_neg hcycle] at h
    cases h
    exact ⟨List.Perm.refl _, List.prefix_refl _⟩

/-- The draft that a climb starts from is on its path. -/
theorem climb_start {unvisited : List Draft} {start : Draft} {p rest : List Draft}
    (hnodup : (unvisited.map (·.name)).Nodup)
    (hstart : unvisited.any (·.name == start.name))
    (h : climb unvisited [] start.name = .ok (p, rest)) : ∀ d ∈ rest, d.name ≠ start.name := by
  obtain ⟨hperm, -⟩ := climb_ok hnodup h
  obtain ⟨x, hx, hxn⟩ := List.any_eq_true.1 hstart
  obtain ⟨s, hs⟩ : ∃ s, unvisited.find? (·.name == start.name) = some s :=
    Option.isSome_iff_exists.1 (List.find?_isSome.2 ⟨x, hx, hxn⟩)
  have hsname : s.name = start.name := key_of_find? (f := Draft.name) hs
  have hsp : s ∈ p := by
    rw [climb_some [] hs] at h
    exact (climb_ok (names_without_nodup hnodup _) h).2.subset (by simp)
  have hsplit : ((p ++ rest).map (·.name)).Nodup :=
    (hperm.map _).nodup_iff.2 hnodup
  rw [List.map_append] at hsplit
  intro d hd heq
  refine List.disjoint_of_nodup_append hsplit (List.mem_map_of_mem hsp) ?_
  rw [hsname, ← heq]
  exact List.mem_map_of_mem hd

/-- Placing uses up every draft that has the name of a start. -/
theorem place_ok {unvisited starts out : List Draft} (hnodup : (unvisited.map (·.name)).Nodup)
    (h : place unvisited starts = .ok out) :
    ∃ left, (out ++ left).Perm unvisited ∧ ∀ d ∈ left, ∀ s ∈ starts, d.name ≠ s.name := by
  -- what one climb does not pass is left for the starts that follow
  induction starts generalizing unvisited out with
  | nil =>
    cases h
    exact ⟨unvisited, List.Perm.refl _, by simp⟩
  | cons start starts ih =>
    simp only [place] at h
    split at h
    next hstart =>
      obtain ⟨⟨p, rest⟩, hclimb, h⟩ := bind_eq_ok.1 h
      obtain ⟨out', hplace, h⟩ := bind_eq_ok.1 h
      obtain rfl := pure_eq_ok.1 h
      obtain ⟨hperm, -⟩ := climb_ok hnodup hclimb
      rw [List.nil_append] at hperm
      have hrest : (rest.map (·.name)).Nodup :=
        ((hperm.map _).nodup_iff.2 hnodup).sublist ((List.sublist_append_right _ _).map _)
      obtain ⟨left, hleft, hfresh⟩ := ih hrest hplace
      refine ⟨left, ?_, ?_⟩
      · have hsplit : ((p.reverse ++ out') ++ left).Perm (p ++ (out' ++ left)) := by
          rw [List.append_assoc]
          exact p.reverse_perm.append_right _
        exact hsplit.trans ((hleft.append_left p).trans hperm)
      · intro d hd s hs
        obtain rfl | hs := List.mem_cons.1 hs
        · exact climb_start hnodup hstart hclimb d
            (hleft.subset (List.mem_append_right _ hd))
        · exact hfresh d hd s hs
    next hstart =>
      obtain ⟨left, hleft, hfresh⟩ := ih hnodup h
      refine ⟨left, hleft, fun d hd s hs => ?_⟩
      obtain rfl | hs := List.mem_cons.1 hs
      · intro heq
        exact hstart (List.any_eq_true.2
          ⟨d, hleft.subset (List.mem_append_right _ hd), by simpa using heq⟩)
      · exact hfresh d hd s hs

/-- What the checks in front of the ordering ensure, and that the order holds each draft once. -/
theorem order_ok {drafts out : List Draft} {known : List String}
    (h : order drafts known = .ok out) :
    out.Perm drafts ∧ (drafts.map (·.name)).Nodup ∧
      ∀ d ∈ drafts, d.superclasses.length ≤ 1 ∧ d.name ∉ known := by
  obtain ⟨_, hnames, h⟩ := bind_eq_ok.1 h
  obtain ⟨_, -, h⟩ := bind_eq_ok.1 h
  obtain ⟨hnodup, hall⟩ := checkNames_ok hnames
  obtain ⟨left, hperm, hfresh⟩ := place_ok hnodup h
  have hleft : left = [] := by
    refine List.eq_nil_iff_forall_not_mem.2 fun d hd => ?_
    exact hfresh d hd d (hperm.subset (List.mem_append_right _ hd)) rfl
  rw [hleft, List.append_nil] at hperm
  exact ⟨hperm, hnodup, fun d hd => ⟨(hall d hd).1, (hall d hd).2.1⟩⟩

end ClassForge.Class

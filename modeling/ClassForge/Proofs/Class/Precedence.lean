import ClassForge.Proofs.Class.Order

/-!
# Superclasses come first

A climb passes one draft after the other, each the superclass of the one before it. Laid down from
its far end, a climb's path puts every draft behind the draft that it extends, and so does the order
that is made of such paths. Drafts that stand so already are left as they are.
-/

namespace ClassForge.Class

/-! ## Climbs -/

/-- From the class `name` upwards one passes the drafts `ds`, each the superclass of the one before
it, and arrives at the class `top`. -/
def Ascends : (name : String) → (ds : List Draft) → (top : String) → Prop
  | name, [], top => name = top
  | name, d :: ds, top => d.name = name ∧ Ascends d.superclass ds top

namespace Ascends

variable {name top : String} {ds : List Draft}

theorem append {d : Draft} (h : Ascends name ds d.name) :
    Ascends name (ds ++ [d]) d.superclass := by
  induction ds generalizing name with
  | nil => exact ⟨h.symm, rfl⟩
  | cons x xs ih => exact ⟨h.1, ih h.2⟩

/-- An ascent can be joined at any draft that it passes. -/
theorem of_append {l r : List Draft} {d : Draft} (h : Ascends name (l ++ d :: r) top) :
    Ascends d.name (d :: r) top := by
  induction l generalizing name with
  | nil => exact ⟨rfl, h.2⟩
  | cons x xs ih => exact ih h.2

end Ascends

/-- A climb that ends passes drafts that were not visited, up to a class that is neither among those
left nor on the path. -/
theorem climb_ascends {unvisited path : List Draft} {name start : String} {p rest : List Draft}
    (hpath : Ascends start path name) (h : climb unvisited path name = .ok (p, rest)) :
    ∃ top, Ascends start p top ∧ top ∉ rest.map (·.name) ∧ top ∉ p.map (·.name) := by
  induction unvisited, path, name using climb.induct with
  | case1 unvisited path name d hfind ih =>
    rw [climb_some path hfind] at h
    obtain rfl : d.name = name := key_of_find? (f := Draft.name) hfind
    exact ih hpath.append h
  | case2 unvisited path name hnone hcycle =>
    rw [climb_none path hnone, if_pos hcycle] at h
    cases h
  | case3 unvisited path name hnone hcycle =>
    rw [climb_none path hnone, if_neg hcycle] at h
    cases h
    refine ⟨name, hpath, ?_, ?_⟩
    · simpa using hnone
    · simpa using hcycle

/-! ## Lists in which superclasses come first -/

/-- Each draft of a list stands behind a draft of the class that it extends, if that class is one of
`names`. -/
def Follows (names : List String) (ds : List Draft) : Prop :=
  ∀ l₁ d l₂, ds = l₁ ++ d :: l₂ → d.superclass ∈ names → d.superclass ∈ l₁.map (·.name)

namespace Follows

variable {names : List String} {ds : List Draft}

theorem nil : Follows names [] := by
  intro l₁ d l₂ h
  simp at h

theorem append_singleton {d : Draft} (h : Follows names ds)
    (hd : d.superclass ∈ names → d.superclass ∈ ds.map (·.name)) : Follows names (ds ++ [d]) := by
  intro l₁ x l₂ hsplit hx
  -- the draft at hand is the last one, or stands in the list as it was before
  rcases List.eq_nil_or_concat l₂ with rfl | ⟨l₂, y, rfl⟩
  · obtain ⟨rfl, hlast⟩ := List.append_inj' hsplit rfl
    obtain rfl : d = x := by simpa using hlast
    exact hd hx
  · rw [List.concat_eq_append, ← List.cons_append, ← List.append_assoc] at hsplit
    exact h l₁ x l₂ (List.append_inj' hsplit rfl).1 hx

/-- The path of a climb, laid down from its far end, goes behind what is laid down already, where
the class that the climb arrives at has its place there if it is one of `names`. -/
theorem append_reverse {name top : String} {p : List Draft} (h : Follows names ds)
    (hp : Ascends name p top) (htop : top ∈ names → top ∈ ds.map (·.name)) :
    Follows names (ds ++ p.reverse) ∧ (name ∈ names → name ∈ (ds ++ p.reverse).map (·.name)) := by
  induction p generalizing name with
  | nil =>
    obtain rfl : name = top := hp
    simpa using ⟨h, by simpa using htop⟩
  | cons d p ih =>
    obtain ⟨rfl, hp⟩ := hp
    obtain ⟨hfollows, hsuper⟩ := ih hp
    rw [List.reverse_cons, ← List.append_assoc]
    exact ⟨hfollows.append_singleton hsuper, fun _ => by simp⟩

end Follows

/-! ## Placing drafts -/

/-- Placing goes on with what has been laid down: `ds` are drafts that stand behind their
superclasses, and every class of `names` is there or not visited yet. -/
theorem place_follows {unvisited starts ds out : List Draft} {names : List String}
    (hnodup : (unvisited.map (·.name)).Nodup)
    (hcover : ∀ n ∈ names, n ∈ ds.map (·.name) ∨ n ∈ unvisited.map (·.name))
    (hds : Follows names ds) (h : place unvisited starts = .ok out) :
    Follows names (ds ++ out) := by
  induction starts generalizing unvisited ds out with
  | nil =>
    cases h
    simpa using hds
  | cons start starts ih =>
    simp only [place] at h
    split at h
    next hstart =>
      obtain ⟨⟨p, rest⟩, hclimb, h⟩ := bind_eq_ok.1 h
      obtain ⟨out', hplace, h⟩ := bind_eq_ok.1 h
      obtain rfl := pure_eq_ok.1 h
      obtain ⟨hperm, -⟩ := climb_ok hnodup hclimb
      rw [List.nil_append] at hperm
      have hsplit : ∀ n ∈ unvisited.map (·.name), n ∈ p.map (·.name) ∨ n ∈ rest.map (·.name) := by
        intro n hn
        have hmem := (hperm.map Draft.name).symm.subset hn
        rwa [List.map_append, List.mem_append] at hmem
      have hstay : Ascends start.name [] start.name := rfl
      obtain ⟨top, hascends, hrest, hp⟩ := climb_ascends hstay hclimb
      -- a class the climb stopped at, if a draft, is neither ahead nor on the path: it is laid down
      have htop : top ∈ names → top ∈ ds.map (·.name) := by
        intro hn
        refine (hcover top hn).resolve_right fun hu => ?_
        exact (hsplit top hu).elim hp hrest
      obtain ⟨hfollows, -⟩ := hds.append_reverse hascends htop
      rw [← List.append_assoc]
      refine ih ?_ ?_ hfollows hplace
      · exact ((hperm.map _).nodup_iff.2 hnodup).sublist ((List.sublist_append_right _ _).map _)
      · intro n hn
        rw [List.map_append, List.mem_append, List.map_reverse, List.mem_reverse]
        rcases hcover n hn with hd | hu
        · exact .inl (.inl hd)
        · exact (hsplit n hu).imp_left .inr
    next => exact ih hnodup hcover hds h

/-- Drafts that stand behind their superclasses are placed as they stand: every climb ends at the
draft that it starts from. -/
theorem place_of_follows {ds done : List Draft} (hnodup : ((done ++ ds).map (·.name)).Nodup)
    (h : Follows ((done ++ ds).map (·.name)) (done ++ ds)) : place ds ds = .ok ds := by
  induction ds generalizing done with
  | nil => rfl
  | cons d ds ih =>
    have hsplit : done ++ d :: ds = (done ++ [d]) ++ ds := by simp
    -- the superclass is laid down already, so it is neither the draft itself nor one that follows
    have hfresh : d.superclass ∉ (d :: ds).map (·.name) := by
      intro hmem
      have hdone := h done d ds rfl (by
        rw [List.map_append]
        exact List.mem_append_right _ hmem)
      rw [List.map_append] at hnodup
      exact List.disjoint_of_nodup_append hnodup hdone hmem
    have hd : d.name ∉ ds.map (·.name) := by
      rw [List.map_append] at hnodup
      exact (List.nodup_cons.1 (List.nodup_append.1 hnodup).2.1).1
    have hwithout : without (d :: ds) d.name = ds := by
      have hkeep : ds.filter (·.name != d.name) = ds := by
        refine List.filter_eq_self.2 fun x hx => ?_
        simpa using fun heq : x.name = d.name => hd (heq ▸ List.mem_map_of_mem hx)
      simpa [without] using hkeep
    rw [List.map_cons, List.mem_cons, not_or] at hfresh
    obtain ⟨hself, hlater⟩ := hfresh
    have hclimb : climb (d :: ds) [] d.name = .ok ([d], ds) := by
      rw [climb_some [] (d := d) (by simp), hwithout, climb_none]
      · simp [Ne.symm hself]
      · exact find?_key_eq_none.2 fun x hx heq => hlater (heq ▸ List.mem_map_of_mem hx)
    have hrest : place ds ds = .ok ds := by
      rw [hsplit] at hnodup h
      exact ih hnodup h
    simp [place, hclimb, hrest, bind, Except.bind, pure, Except.pure]

/-- In an order each draft's superclass exists or is a draft that stands in front of it. Drafts that
stand so already are in order. -/
theorem order_follows {drafts out : List Draft} {known : List String}
    (h : order drafts known = .ok out) :
    (∀ d ∈ drafts, d.superclass ∈ drafts.map (·.name) ∨ d.superclass ∈ known) ∧
      Follows (drafts.map (·.name)) out ∧ (Follows (drafts.map (·.name)) drafts → out = drafts) := by
  obtain ⟨-, hnodup, -⟩ := order_ok h
  obtain ⟨_, -, h⟩ := bind_eq_ok.1 h
  obtain ⟨_, hsupers, hplace⟩ := bind_eq_ok.1 h
  refine ⟨fun d hd => ?_, ?_, fun hin => ?_⟩
  · exact List.mem_append.1 (checkSuperclasses_eq_ok.1 hsupers d hd)
  · have hstart : Follows (drafts.map (·.name)) ([] ++ out) :=
      place_follows hnodup (fun n hn => .inr hn) .nil hplace
    rwa [List.nil_append] at hstart
  · have hnone : (([] ++ drafts : List Draft).map (·.name)).Nodup := by rwa [List.nil_append]
    have hsame : place drafts drafts = .ok drafts := place_of_follows hnone hin
    exact Except.ok.inj (hplace.symm.trans hsame)

end ClassForge.Class

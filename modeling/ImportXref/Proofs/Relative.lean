import ImportXref.Proofs.Text.Edges
import ImportXref.Relative

/-!
# Relative references — component by component

A dotted name is the list of its components.  The `i`-th location of a module drops its last `i`
components, so a reference with `p` leading dots replaces the last `p` components of the module
by its own.

* `locations_getElem?`: the locations of a module in terms of its components.
* `resolve_replicate_append`: what a reference with `p` leading dots resolves to, and when it
  leaves the top-level package.
* `components_of_resolve`: the components of what a relative reference resolves to.
* `resolve_componentwise`: locations and resolution for every module and every reference.
-/

namespace ImportXref

/-- The components of a dotted name. -/
def components (name : Text) : List Text :=
  name.splitOn '.'

/-- The dotted name with the given components. -/
def dottedName (parts : List Text) : Text :=
  ['.'].intercalate parts

theorem components_ne_nil (name : Text) : components name ≠ [] :=
  List.splitOn_ne_nil '.' name

/-- A dotted name is its components with dots between them. -/
theorem dottedName_components (name : Text) : dottedName (components name) = name :=
  List.intercalate_splitOn '.'

/-- Components without dots are read back from their dotted name. -/
theorem components_dottedName {parts : List Text} (hne : parts ≠ [])
    (h : ∀ part ∈ parts, '.' ∉ part) : components (dottedName parts) = parts :=
  List.splitOn_intercalate '.' h hne

/-- No component has a dot in it. -/
theorem dot_notMem_of_mem_components {name part : Text} (h : part ∈ components name) :
    '.' ∉ part := fun hdot =>
  (Text.of_mem_splitOn h '.' hdot).2 rfl

/-- A dot between two names separates their components. -/
theorem components_append_dot (u v : Text) :
    components (u ++ '.' :: v) = components u ++ components v :=
  List.splitOn_append_cons_self u v

theorem dottedName_cons_cons (w v : Text) (ws : List Text) :
    dottedName (w :: v :: ws) = w ++ '.' :: dottedName (v :: ws) := by
  simp [dottedName]

/-- The dotted name of two lists of components has one more dot between them. -/
theorem dottedName_append {us vs : List Text} (hu : us ≠ []) (hv : vs ≠ []) :
    dottedName (us ++ vs) = dottedName us ++ '.' :: dottedName vs := by
  induction us with
  | nil => exact absurd rfl hu
  | cons u us ih =>
      cases us with
      | nil =>
          obtain ⟨v, vs, rfl⟩ := List.exists_cons_of_ne_nil hv
          simp [dottedName]
      | cons u' us =>
          have hrest := ih (by simp)
          rw [List.cons_append, List.cons_append, dottedName_cons_cons, dottedName_cons_cons,
            ← List.cons_append, hrest, List.append_assoc, List.cons_append]

/-! ### Ancestors -/

theorem properAncestors_of_notMem {t : Text} (h : '.' ∉ t) : properAncestors t = [] := by
  induction t with
  | nil => rfl
  | cons c t ih =>
      obtain ⟨hc, ht⟩ := not_or.mp (List.mem_cons.not.mp h)
      simp [properAncestors, ih ht, Ne.symm hc]

/-- Behind a first component, all packages begin with it. -/
theorem properAncestors_append {u : Text} (h : '.' ∉ u) (t : Text) :
    properAncestors (u ++ '.' :: t) = u :: (properAncestors t).map (u ++ '.' :: ·) := by
  induction u with
  | nil => simp [properAncestors]
  | cons c u ih =>
      obtain ⟨hc, hu⟩ := not_or.mp (List.mem_cons.not.mp h)
      simp [properAncestors, ih hu, Ne.symm hc]

/-- The packages above a name are its first components, in any number but all of them. -/
theorem properAncestors_dottedName (w : Text) (ws : List Text) (h : ∀ v ∈ w :: ws, '.' ∉ v) :
    properAncestors (dottedName (w :: ws)) =
      (List.range ws.length).map fun i => dottedName (w :: ws.take i) := by
  induction ws generalizing w with
  | nil => simpa [dottedName] using properAncestors_of_notMem (h w (List.mem_cons_self ..))
  | cons v ws ih =>
      rw [dottedName_cons_cons, properAncestors_append (h w (List.mem_cons_self ..)),
        ih v fun u hu => h u (List.mem_cons_of_mem _ hu), List.length_cons, List.range_succ_eq_map,
        List.map_cons, List.map_map, List.map_map]
      refine congrArg₂ List.cons (by simp [dottedName]) (List.map_congr_left fun i _ => ?_)
      simp [dottedName_cons_cons]

/-- **The locations of a module**: the `i`-th is the module without its last `i` components. -/
theorem locations_getElem? (m : Text) (i : Nat) :
    (locations m)[i]? =
      if i < (components m).length then
        some (dottedName ((components m).take ((components m).length - i)))
      else none := by
  obtain ⟨w, ws, hcomponents⟩ := List.exists_cons_of_ne_nil (components_ne_nil m)
  -- the ancestors come shortest first, the locations longest first
  have hancestors : properAncestors m =
      (List.range ws.length).map fun i => dottedName (w :: ws.take i) := by
    have h := properAncestors_dottedName w ws fun v hv =>
      dot_notMem_of_mem_components (hcomponents ▸ hv)
    rwa [← hcomponents, dottedName_components] at h
  rw [locations, hancestors, hcomponents, List.length_cons]
  cases i with
  | zero =>
      rw [List.getElem?_cons_zero, if_pos (Nat.succ_pos _), Nat.sub_zero,
        ← List.length_cons (a := w), List.take_length, ← hcomponents, dottedName_components]
  | succ j =>
      rw [List.getElem?_cons_succ]
      by_cases hj : j < ws.length
      · have hlast : ws.length - 1 - j + 1 = ws.length + 1 - (j + 1) := by omega
        rw [List.getElem?_reverse (by simpa using hj), if_pos (by omega), ← hlast]
        simp only [List.length_map, List.length_range, List.getElem?_map]
        rw [List.getElem?_range (by omega), Option.map_some, List.take_succ_cons]
      · rw [if_neg (by omega), List.getElem?_eq_none (by simpa using hj)]

/-! ### Resolution -/

theorem takeWhile_dots {p : Nat} {s : Text} (hs : s.head? ≠ some '.') :
    (List.replicate p '.' ++ s).takeWhile (· == '.') = List.replicate p '.' := by
  rw [List.takeWhile_append_of_pos (by simp)]
  cases s with
  | nil => simp
  | cons c s => simpa using hs

theorem dropWhile_dots {p : Nat} {s : Text} (hs : s.head? ≠ some '.') :
    (List.replicate p '.' ++ s).dropWhile (· == '.') = s := by
  rw [List.dropWhile_append_of_pos (by simp)]
  cases s with
  | nil => simp
  | cons c s => simpa using hs

/-- **Resolution.**  A reference with `p` leading dots and the rest `s` is absolute if `p` is
zero; it leaves the top-level package if `m` has no more than `p` components; else it is `s` below
the module without its last `p` components. -/
theorem resolve_replicate_append (m : Text) {p : Nat} {s : Text} (hs : s.head? ≠ some '.') :
    resolve m (List.replicate p '.' ++ s) =
      if p = 0 then .ok s
      else if p < (components m).length then
        let base := dottedName ((components m).take ((components m).length - p))
        .ok (if s = [] then base else base ++ '.' :: s)
      else .error (.depthExceeded (List.replicate p '.' ++ s) m p) := by
  have hdepth : leadingDots (List.replicate p '.' ++ s) = p := by
    rw [leadingDots, takeWhile_dots hs, List.length_replicate]
  have hrest : afterDots (List.replicate p '.' ++ s) = s := dropWhile_dots hs
  rw [resolve, absoluteName, hdepth, hrest, locations_getElem?]
  by_cases hp : p = 0
  · simp [hp]
  · by_cases hn : p < (components m).length
    · simp [hp, hn]
    · simp [hp, hn, locations]

/-- What a relative reference resolves to has the components of the module that its dots leave,
and then its own. -/
theorem components_of_resolve {m s a : Text} {p : Nat} (hs : s.head? ≠ some '.') (hp : 0 < p)
    (h : resolve m (List.replicate p '.' ++ s) = .ok a) :
    p < (components m).length ∧ components a =
      (components m).take ((components m).length - p) ++ if s = [] then [] else components s := by
  rw [resolve_replicate_append m hs, if_neg (Nat.ne_of_gt hp)] at h
  by_cases hn : p < (components m).length
  · rw [if_pos hn] at h
    have hbase : components (dottedName ((components m).take ((components m).length - p))) =
        (components m).take ((components m).length - p) := by
      refine components_dottedName (fun hnil => ?_) fun part hpart =>
        dot_notMem_of_mem_components (List.mem_of_mem_take hpart)
      exact (List.take_eq_nil_iff.mp hnil).elim (Nat.sub_ne_zero_of_lt hn) (components_ne_nil m)
    refine ⟨hn, ?_⟩
    rw [← Except.ok.inj h]
    by_cases hrest : s = []
    · simp only [if_pos hrest, hbase, List.append_nil]
    · simp only [if_neg hrest, components_append_dot, hbase]
  · rw [if_neg hn] at h
    cases h

/-- The locations of a module are as many as its components, and each drops one more of them. -/
theorem locations_eq (m : Text) :
    locations m = (List.range (components m).length).map fun i =>
      dottedName ((components m).take ((components m).length - i)) := by
  refine List.ext_getElem? fun i => ?_
  rw [locations_getElem?]
  by_cases hi : i < (components m).length
  · rw [if_pos hi, List.getElem?_map, List.getElem?_range hi, Option.map_some]
  · rw [if_neg hi, List.getElem?_eq_none (by simpa using hi)]

/-- **Relative references, component by component.**  The components of a module are what lies
between its dots.  A reference without leading dots stays as it is; one with at least as many
leading dots as the module has components is refused; any other is the module without its last
`p` components and then the rest of the reference, and keeps the first component.  The locations
of a module drop its last components one by one. -/
theorem resolve_componentwise (m : Text) (p : Nat) {s : Text} (hs : s.head? ≠ some '.') :
    let r := List.replicate p '.' ++ s
    let cs := components m
    (cs ≠ [] ∧ (∀ c ∈ cs, '.' ∉ c) ∧ dottedName cs = m) ∧
    (resolve m r =
      if p = 0 then .ok r
      else if cs.length ≤ p then .error (.depthExceeded r m p)
      else .ok (dottedName (cs.take (cs.length - p)) ++ if s = [] then [] else '.' :: s)) ∧
    (locations m = (List.range cs.length).map fun i => dottedName (cs.take (cs.length - i))) ∧
    ∀ a, 0 < p → resolve m r = .ok a → (components a).head? = cs.head? := by
  refine ⟨⟨components_ne_nil m, fun c => dot_notMem_of_mem_components, dottedName_components m⟩, ?_,
    locations_eq m, fun a hp ha => ?_⟩
  · rw [resolve_replicate_append m hs]
    by_cases hp : p = 0
    · simp [hp]
    by_cases hn : p < (components m).length
    · rw [if_neg hp, if_neg hp, if_pos hn, if_neg (Nat.not_le_of_lt hn)]
      by_cases hrest : s = [] <;> simp [hrest]
    · rw [if_neg hp, if_neg hp, if_neg hn, if_pos (Nat.le_of_not_lt hn)]
  · obtain ⟨hn, hcomponents⟩ := components_of_resolve hs hp ha
    obtain ⟨first, rest, hfirst⟩ := List.exists_cons_of_ne_nil (components_ne_nil m)
    obtain ⟨k, hk⟩ := Nat.exists_eq_succ_of_ne_zero (Nat.sub_ne_zero_of_lt hn)
    rw [hcomponents, hk, hfirst]
    rfl

/-- From a module with an empty component, one dot leads to that component. -/
theorem viewsBeside_resolved :
    "views".toList.head? ≠ some '.' ∧
      components "app..models".toList = ["app".toList, [], "models".toList] ∧
      resolve "app..models".toList ".views".toList = .ok "app..views".toList ∧
      resolve "app..models".toList "...views".toList =
        .error (.depthExceeded "...views".toList "app..models".toList 3) ∧
      (components "app..views".toList).head? = some "app".toList := by
  have hs : "views".toList.head? ≠ some '.' := by decide
  obtain ⟨-, hone, -, hfirst⟩ := resolve_componentwise "app..models".toList 1 hs
  obtain ⟨-, hthree, -⟩ := resolve_componentwise "app..models".toList 3 hs
  exact ⟨hs, by decide, hone, hthree, hfirst _ Nat.one_pos hone⟩

end ImportXref

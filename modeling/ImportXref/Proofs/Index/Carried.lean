import ImportXref.Index.Plan
import Mathlib.Data.List.TakeWhile

/-!
# Index — what a run carries out

A run carries out the actions of its plan up to the first that is refused, whatever the index.
An action touches the lists of at most one module, and a reference ends up at the end of that
module's lists: once among all references, and `hits` times inside the project.

* `index_run`: a run ends at the index that results from its carried-out actions.
* `list_all_foldl`, `mem_keys_all_foldl`: the lists and the keys of `all` after a list of actions.
* `list_inProject_foldl`, `mem_keys_inProject_foldl`: those of `inProject`, which only modules of
  the project have.
* `gains_run`: references of one module that are not refused are gained in order.
-/

namespace ImportXref

namespace Action

/-- The module whose lists an action touches. -/
def touched? : Action → Option Text
  | note _ | refuse _ => none
  | target module => some module
  | reference r => some r.target

/-- The reference that an action records. -/
def recorded? : Action → Option Reference
  | note _ | refuse _ | target _ => none
  | reference r => some r

end Action

namespace Plan

/-- The actions of a plan before the first that is refused. -/
def carriedOut (plan : List Action) : List Action :=
  plan.takeWhile fun a => a.refusal?.isNone

/-- The references that a plan records, in order. -/
def recorded (plan : List Action) : List Reference :=
  (carriedOut plan).filterMap Action.recorded?

/-- Only what is not refused is recorded. -/
theorem refusal?_of_mem_recorded {plan : List Action} {r : Reference} (hr : r ∈ recorded plan) :
    r.refusal? = none := by
  obtain ⟨a, ha, har⟩ := List.mem_filterMap.mp hr
  have hnone := List.mem_takeWhile_imp ha
  cases a with
  | note | target | refuse => cases har
  | reference r' => cases har; exact Option.isNone_iff_eq_none.mp hnone

end Plan

namespace Reference

/-- The entries that the references `log` leave in the list of `target`. -/
def entriesOf (target : Text) (log : List Reference) : List Text :=
  (log.filter (·.target = target)).map entry

/-- The same entries, each as often as its source counts. -/
def weighted (weight : Text → Nat) (target : Text) (log : List Reference) : List Text :=
  (log.filter (·.target = target)).flatMap fun r => List.replicate (weight r.source) r.entry

theorem entriesOf_append (target : Text) (u v : List Reference) :
    entriesOf target (u ++ v) = entriesOf target u ++ entriesOf target v := by
  simp [entriesOf]

theorem weighted_append (weight : Text → Nat) (target : Text) (u v : List Reference) :
    weighted weight target (u ++ v) = weighted weight target u ++ weighted weight target v := by
  simp [weighted]

end Reference

namespace Index

open Reference (entriesOf weighted)

/-! ### One action -/

@[simp] theorem isModule_apply (x : Index) (a : Action) (m : Text) :
    (a.apply x).isModule m = x.isModule m := by
  cases a <;> rfl

@[simp] theorem modules_apply (x : Index) (a : Action) : (a.apply x).modules = x.modules := by
  cases a <;> rfl

@[simp] theorem hits_apply (x : Index) (a : Action) : (a.apply x).hits = x.hits := by
  cases a <;> rfl

/-- An action adds the entry of its reference to the list of its target, and to no other list. -/
theorem list_all_apply (x : Index) (a : Action) (t : Text) :
    (a.apply x).all.list t = x.all.list t ++ entriesOf t a.recorded?.toList := by
  cases a with
  | note | refuse => simp [Action.apply, Action.recorded?, entriesOf]
  | target m =>
      rw [show (Action.apply x (.target m)).all = x.all.extend m [] from rfl, RefMap.list_extend]
      by_cases h : t = m <;> simp [Action.recorded?, entriesOf, h]
  | reference r =>
      rw [show (Action.apply x (.reference r)).all = x.all.extend r.target [r.entry] from rfl,
        RefMap.list_extend]
      by_cases h : r.target = t
      · simp [Action.recorded?, entriesOf, h]
      · simp [Action.recorded?, entriesOf, h, Ne.symm h]

/-- An action gives a list to the module it touches, and to no other one. -/
theorem mem_keys_all_apply (x : Index) (a : Action) (t : Text) :
    t ∈ (a.apply x).all.keys ↔ t ∈ x.all.keys ∨ a.touched? = some t := by
  cases a with
  | note | refuse => simp [Action.apply, Action.touched?]
  | target m => exact RefMap.mem_keys_extend.trans (by simp [Action.touched?, eq_comm])
  | reference r => exact RefMap.mem_keys_extend.trans (by simp [Action.touched?, eq_comm])

/-- Inside the project, an action adds its entry as often as the source counts, if the target is a
module of the project. -/
theorem list_inProject_apply (x : Index) (a : Action) (t : Text) :
    (a.apply x).inProject.list t =
      x.inProject.list t ++ if x.isModule t then weighted x.hits t a.recorded?.toList else [] := by
  -- only the list of a module of the project grows
  have grown (m : Text) (new : List Text) :
      (if x.isModule m then x.inProject.extend m new else x.inProject).list t =
        x.inProject.list t ++ if x.isModule t then (if m = t then new else []) else [] := by
    by_cases h : m = t
    · subst h
      by_cases hm : x.isModule m = true <;> simp [hm, RefMap.list_extend]
    · by_cases hm : x.isModule m = true <;> simp [hm, h, Ne.symm h, RefMap.list_extend]
  cases a with
  | note | refuse => simp [Action.apply, Action.recorded?, weighted]
  | target m =>
      refine (grown m []).trans ?_
      simp [Action.recorded?, weighted]
  | reference r =>
      refine (grown r.target (List.replicate (x.hits r.source) r.entry)).trans ?_
      by_cases h : r.target = t <;> simp [Action.recorded?, weighted, h]

/-- Inside the project, an action gives a list only to a module of the project. -/
theorem mem_keys_inProject_apply (x : Index) (a : Action) (t : Text) :
    t ∈ (a.apply x).inProject.keys ↔
      t ∈ x.inProject.keys ∨ a.touched? = some t ∧ x.isModule t = true := by
  have grown (m : Text) (new : List Text) :
      t ∈ (if x.isModule m then x.inProject.extend m new else x.inProject).keys ↔
        t ∈ x.inProject.keys ∨ some m = some t ∧ x.isModule t = true := by
    by_cases hm : x.isModule m = true
    · rw [if_pos hm, RefMap.mem_keys_extend]
      refine or_congr_right ⟨?_, fun h => (Option.some.inj h.1).symm⟩
      rintro rfl
      exact ⟨rfl, hm⟩
    · rw [if_neg hm]
      refine ⟨Or.inl, fun h => h.resolve_right ?_⟩
      rintro ⟨he, ht⟩
      exact hm (Option.some.inj he ▸ ht)
  cases a with
  | note | refuse => simp [Action.apply, Action.touched?]
  | target m => exact grown m []
  | reference r => exact grown r.target _

/-! ### A list of actions -/

@[simp] theorem modules_foldl (done : List Action) (x : Index) :
    (done.foldl Action.apply x).modules = x.modules := by
  induction done generalizing x with
  | nil => rfl
  | cons a done ih => rw [List.foldl_cons, ih, modules_apply]

theorem recorded?_toList_append (a : Action) (done : List Action) :
    (a :: done).filterMap Action.recorded? =
      a.recorded?.toList ++ done.filterMap Action.recorded? := by
  cases h : a.recorded? <;> simp [h]

/-- The list of a module after some actions: what was there, then the entries they record for it. -/
theorem list_all_foldl (done : List Action) (x : Index) (t : Text) :
    (done.foldl Action.apply x).all.list t =
      x.all.list t ++ entriesOf t (done.filterMap Action.recorded?) := by
  induction done generalizing x with
  | nil => simp [entriesOf]
  | cons a done ih =>
      rw [List.foldl_cons, ih, list_all_apply, recorded?_toList_append, List.append_assoc,
        Reference.entriesOf_append]

/-- After some actions, the modules with a list are those before and the ones touched. -/
theorem mem_keys_all_foldl (done : List Action) (x : Index) (t : Text) :
    t ∈ (done.foldl Action.apply x).all.keys ↔
      t ∈ x.all.keys ∨ some t ∈ done.map Action.touched? := by
  induction done generalizing x with
  | nil => simp
  | cons a done ih =>
      rw [List.foldl_cons, ih, mem_keys_all_apply, List.map_cons, List.mem_cons, or_assoc]
      exact or_congr_right (or_congr_left eq_comm)

/-- The list of a module inside the project after some actions, each entry as often as its source
counts. -/
theorem list_inProject_foldl (done : List Action) (x : Index) (t : Text) :
    (done.foldl Action.apply x).inProject.list t =
      x.inProject.list t ++
        if x.isModule t then weighted x.hits t (done.filterMap Action.recorded?) else [] := by
  induction done generalizing x with
  | nil => simp [weighted]
  | cons a done ih =>
      rw [List.foldl_cons, ih, list_inProject_apply, isModule_apply, hits_apply,
        recorded?_toList_append, Reference.weighted_append]
      split <;> simp

/-- After some actions, the modules with a list inside the project are those before and the touched
modules of the project. -/
theorem mem_keys_inProject_foldl (done : List Action) (x : Index) (t : Text) :
    t ∈ (done.foldl Action.apply x).inProject.keys ↔
      t ∈ x.inProject.keys ∨ some t ∈ done.map Action.touched? ∧ x.isModule t = true := by
  induction done generalizing x with
  | nil => simp
  | cons a done ih =>
      rw [List.foldl_cons, ih, mem_keys_inProject_apply, isModule_apply, List.map_cons,
        List.mem_cons, or_assoc, ← or_and_right]
      exact or_congr_right (and_congr_left fun _ => or_congr_left eq_comm)

/-! ### The numbers of references -/

/-- A source counts twice at most: as a module and as a package with an initializer. -/
theorem hits_le (x : Index) (source : Text) : x.hits source ≤ 2 := by
  unfold hits
  split <;> split <;> omega

/-- An action keeps the references inside the project at most twice as many as all. -/
theorem inProjectCount_apply (x : Index) (a : Action)
    (hx : x.inProjectCount ≤ 2 * x.referenceCount) :
    (a.apply x).inProjectCount ≤ 2 * (a.apply x).referenceCount := by
  simp only [inProjectCount, referenceCount] at hx ⊢
  cases a with
  | note | refuse => exact hx
  | target m =>
      show (if x.isModule m then x.inProject.extend m [] else x.inProject).size ≤
        2 * (x.all.extend m []).size
      split <;> simpa [RefMap.size_extend] using hx
  | reference r =>
      have := hits_le x r.source
      show (if x.isModule r.target then x.inProject.extend r.target _ else x.inProject).size ≤
        2 * (x.all.extend r.target [r.entry]).size
      split
      · simp only [RefMap.size_extend, List.length_replicate, List.length_singleton]
        omega
      · simp only [RefMap.size_extend, List.length_singleton]
        omega

/-- Actions keep the references inside the project at most twice as many as all. -/
theorem inProjectCount_foldl (done : List Action) {x : Index}
    (hx : x.inProjectCount ≤ 2 * x.referenceCount) :
    (done.foldl Action.apply x).inProjectCount ≤
      2 * (done.foldl Action.apply x).referenceCount := by
  induction done generalizing x with
  | nil => exact hx
  | cons a done ih => exact ih (inProjectCount_apply x a hx)

/-! ### A run -/

/-- **A run is its carried-out actions.** -/
theorem index_run (x : Index) (plan : List Action) :
    (x.run plan).index = (Plan.carriedOut plan).foldl Action.apply x := by
  induction plan generalizing x with
  | nil => rfl
  | cons a plan ih =>
      simp only [run, Plan.carriedOut, List.takeWhile_cons]
      cases h : a.refusal? with
      | some e => rfl
      | none => exact ih (a.apply x)

/-! ### References of one module -/

/-- `y` is `x` after the references `refs`, all of the module `m`, were recorded in order. -/
structure Gains (x : Index) (m : Text) (refs : List Reference) (y : Index) : Prop where
  modules : y.modules = x.modules
  list_all : ∀ t, y.all.list t =
    x.all.list t ++ if t = m then refs.map Reference.entry else []
  mem_keys_all : ∀ t, t ∈ y.all.keys ↔ t ∈ x.all.keys ∨ t = m
  list_inProject : ∀ t, y.inProject.list t = x.inProject.list t ++
    if t = m ∧ x.isModule m = true then
      refs.flatMap fun r => List.replicate (x.hits r.source) r.entry
    else []
  mem_keys_inProject : ∀ t, t ∈ y.inProject.keys ↔
    t ∈ x.inProject.keys ∨ t = m ∧ x.isModule m = true

/-- References of one module all belong to it and none to another. -/
theorem filter_target {m : Text} {refs : List Reference} (h : ∀ r ∈ refs, r.target = m)
    (t : Text) : refs.filter (·.target = t) = if t = m then refs else [] := by
  by_cases ht : t = m
  · rw [if_pos ht, List.filter_eq_self]
    exact fun r hr => decide_eq_true ((h r hr).trans ht.symm)
  · rw [if_neg ht, List.filter_eq_nil_iff]
    exact fun r hr he => ht ((of_decide_eq_true he).symm.trans (h r hr))

/-- A plan that gives a module its lists and records references of it that are not refused is
carried out to its end, and the index gains these references. -/
theorem gains_run (x : Index) {m : Text} {refs : List Reference}
    (htarget : ∀ r ∈ refs, r.target = m) (hrefusal : ∀ r ∈ refs, r.refusal? = none) :
    (x.run (.target m :: refs.map .reference)).refusal? = none ∧
      x.Gains m refs (x.run (.target m :: refs.map .reference)).index := by
  have hnone : ∀ a ∈ Action.target m :: refs.map .reference, a.refusal? = none := by
    intro a ha
    rcases List.mem_cons.mp ha with rfl | ha
    · rfl
    · obtain ⟨r, hr, rfl⟩ := List.mem_map.mp ha
      exact hrefusal r hr
  have hdone : Plan.carriedOut (.target m :: refs.map .reference) =
      .target m :: refs.map .reference :=
    List.takeWhile_eq_self_iff.mpr fun a ha => Option.isNone_iff_eq_none.mpr (hnone a ha)
  have hrecorded : (Action.target m :: refs.map .reference).filterMap Action.recorded? = refs := by
    rw [recorded?_toList_append, List.filterMap_map]
    exact List.filterMap_some
  have htouched (t : Text) :
      some t ∈ (Action.target m :: refs.map .reference).map Action.touched? ↔ t = m := by
    rw [List.map_cons, List.mem_cons, List.map_map]
    refine ⟨fun ht => ?_, fun ht => .inl (congrArg some ht)⟩
    rcases ht with ht | ht
    · exact Option.some.inj ht
    · obtain ⟨r, hr, he⟩ := List.mem_map.mp ht
      exact (Option.some.inj he).symm.trans (htarget r hr)
  refine ⟨by rw [refusal?_run]; exact List.findSome?_eq_none_iff.mpr hnone, ?_⟩
  -- the whole plan is carried out, so its effects add up
  rw [index_run, hdone]
  refine ⟨modules_foldl _ x, fun t => ?_, fun t => ?_, fun t => ?_, fun t => ?_⟩
  · rw [list_all_foldl, hrecorded, entriesOf, filter_target htarget]
    split <;> rfl
  · rw [mem_keys_all_foldl, htouched]
  · rw [list_inProject_foldl, hrecorded, weighted, filter_target htarget]
    by_cases ht : t = m
    · subst ht
      simp
    · simp [ht]
  · rw [mem_keys_inProject_foldl, htouched]
    refine or_congr_right (and_congr_right fun ht => ?_)
    rw [ht]

end Index

end ImportXref

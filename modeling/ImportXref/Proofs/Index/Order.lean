import ImportXref.Proofs.Index.Scope
import Mathlib.Data.List.Nodup

/-!
# Index — the order of operations on different modules

Operations about different modules do not see each other: whether one of them is refused depends
on neither, and each grows the lists of its own module.  So they can change places, and files of
different modules can be read in any order; only the list of the modules follows it.

* `Operation.Apart`: two operations that are about no module in common.
* `apply_comm`, `run_comm`, `after_comm`: actions, runs and operations that touch no module in
  common change places; `after_perm`: operations apart from each other can be put in any order.
* `Index.ofSources`: files read one after the other into the index over them.
* `Index.order_irrelevant`: two operations, and any number of files, in any order.
-/

namespace ImportXref

theorem RefMap.extend_comm (m : RefMap) {j k : Text} (h : j ≠ k) (xs ys : List Text) :
    (m.extend j xs).extend k ys = (m.extend k ys).extend j xs := by
  refine ext_find? fun i => ?_
  rw [find?_extend, find?_extend, find?_extend, find?_extend, list_extend, list_extend,
    if_neg h, if_neg h.symm]
  by_cases hj : i = j
  · subst hj
    rw [if_neg h, if_pos rfl, if_pos rfl]
  · rw [if_neg hj, if_neg hj]

/-- The two operations are about no module in common. -/
def Operation.Apart (p q : Operation) : Prop :=
  p.target? = q.target? → p.target? = none

instance (p q : Operation) : Decidable (p.Apart q) :=
  inferInstanceAs (Decidable (_ → _))

namespace Index

variable {x y : Index}

/-! ### Two runs -/

theorem grow_comm (x : Index) {s t : Text} (h : s ≠ t) (new inside new' inside' : List Text) :
    (x.grow s new inside).grow t new' inside' = (x.grow t new' inside').grow s new inside := by
  have hall := x.all.extend_comm h new new'
  -- neither step changes which modules the project has
  have hin : (if x.isModule t then
        (if x.isModule s then x.inProject.extend s inside else x.inProject).extend t inside'
      else if x.isModule s then x.inProject.extend s inside else x.inProject) =
      if x.isModule s then
        (if x.isModule t then x.inProject.extend t inside' else x.inProject).extend s inside
      else if x.isModule t then x.inProject.extend t inside' else x.inProject := by
    by_cases hs : x.isModule s = true <;> by_cases ht : x.isModule t = true
    · simp only [hs, ht, if_true]
      exact x.inProject.extend_comm h inside inside'
    all_goals simp [hs, ht]
  exact congrArg₂ (Index.mk x.modules) hall hin

/-- Actions that touch no module in common change places. -/
theorem apply_comm (x : Index) {a b : Action}
    (h : ∀ t, a.touched? = some t → b.touched? ≠ some t) :
    b.apply (a.apply x) = a.apply (b.apply x) := by
  cases a with
  | note | refuse => rfl
  | target s =>
      cases b with
      | note | refuse => rfl
      | target t =>
          have hst : s ≠ t := fun he => h s rfl (congrArg some he.symm)
          simp only [apply_target, x.grow_comm hst]
      | reference r =>
          have hsr : s ≠ r.target := fun he => h s rfl (congrArg some he.symm)
          simp only [apply_target, apply_reference, hits_grow, x.grow_comm hsr]
  | reference r =>
      cases b with
      | note | refuse => rfl
      | target t =>
          have hrt : r.target ≠ t := fun he => h r.target rfl (congrArg some he.symm)
          simp only [apply_target, apply_reference, hits_grow, x.grow_comm hrt]
      | reference r' =>
          have hrr : r.target ≠ r'.target := fun he => h r.target rfl (congrArg some he.symm)
          simp only [apply_reference, hits_grow, x.grow_comm hrr]

/-- An action changes places with a list of actions. -/
theorem apply_foldl_comm (x : Index) {a : Action} {done : List Action}
    (h : ∀ b ∈ done, ∀ t, a.touched? = some t → b.touched? ≠ some t) :
    done.foldl Action.apply (a.apply x) = a.apply (done.foldl Action.apply x) := by
  induction done generalizing x with
  | nil => rfl
  | cons b done ih =>
      obtain ⟨hb, hdone⟩ := List.forall_mem_cons.mp h
      rw [List.foldl_cons, List.foldl_cons, x.apply_comm hb, ih _ hdone]

theorem foldl_comm (x : Index) {done done' : List Action}
    (h : ∀ a ∈ done, ∀ b ∈ done', ∀ t, a.touched? = some t → b.touched? ≠ some t) :
    done'.foldl Action.apply (done.foldl Action.apply x) =
      done.foldl Action.apply (done'.foldl Action.apply x) := by
  induction done generalizing x with
  | nil => rfl
  | cons a done ih =>
      obtain ⟨ha, hdone⟩ := List.forall_mem_cons.mp h
      rw [List.foldl_cons, List.foldl_cons, ih _ hdone, x.apply_foldl_comm ha]

/-- Runs that touch no module in common change places. -/
theorem run_comm (x : Index) {p q : List Action}
    (h : ∀ a ∈ p, ∀ b ∈ q, ∀ t, a.touched? = some t → b.touched? ≠ some t) :
    ((x.run p).index.run q).index = ((x.run q).index.run p).index := by
  rw [index_run, index_run, index_run, index_run]
  exact x.foldl_comm fun a ha b hb =>
    h a (List.takeWhile_subset _ ha) b (List.takeWhile_subset _ hb)

/-! ### Operations in any order -/

/-- Operations that are about no module in common change places. -/
theorem after_comm (x : Index) {p q : Operation} (h : p.Apart q) :
    x.after [p, q] = x.after [q, p] := by
  refine x.run_comm fun a ha b hb t hat hbt => ?_
  have hp : p.target? = some t := p.touched?_of_mem_plan ha hat
  have hq : q.target? = some t := q.touched?_of_mem_plan hb hbt
  cases hp.symm.trans (h (hp.trans hq.symm))

/-- Operations apart from each other can be put in any order. -/
theorem after_perm (x : Index) {ops ops' : List Operation} (hperm : ops.Perm ops')
    (h : ∀ p ∈ ops, ∀ q ∈ ops, p ≠ q → p.Apart q) : x.after ops = x.after ops' := by
  refine hperm.foldl_eq' (fun p hp q hq z => ?_) x
  by_cases hpq : p = q
  · rw [hpq]
  · exact z.after_comm (h p hp q hq hpq)

/-! ### Files in any order -/

/-- Exactly files that all have module names have an index. -/
theorem exists_ofFiles_iff (filenames : List Text) :
    (∃ x, ofFiles filenames = .ok x) ↔ ∀ f ∈ filenames, ∃ m, moduleName f = .ok m := by
  constructor
  · rintro ⟨x, hx⟩ f hf
    have hmap := (History.mk filenames x hx []).map_moduleName
    obtain ⟨m, -, hm⟩ := List.mem_map.mp (hmap ▸ List.mem_map_of_mem hf)
    exact ⟨m, hm.symm⟩
  · intro h
    have hnames : ∃ names, filenames.mapM moduleName = .ok names := by
      induction filenames with
      | nil => exact ⟨[], rfl⟩
      | cons f rest ih =>
          obtain ⟨⟨m, hm⟩, hrest⟩ := List.forall_mem_cons.mp h
          obtain ⟨ms, hms⟩ := ih hrest
          exact ⟨m :: ms, by rw [List.mapM_cons, hm, hms]; rfl⟩
    obtain ⟨names, hnames⟩ := hnames
    cases filenames with
    | nil => exact ⟨_, rfl⟩
    | cons f rest => exact ⟨.fresh (some names), by simp only [ofFiles, hnames]; rfl⟩

/-- Reads files, given by name and text, one after the other into the index over them.  The first
refusal ends it. -/
def ofSources (files : List (Text × Text)) : Except RecordError Index :=
  match ofFiles (files.map Prod.fst) with
  | .error e => .error e
  | .ok x =>
    let r := x.run (files.flatMap fun f => Plan.file f.1 f.2)
    match r.refusal? with
    | some e => .error e
    | none => .ok r.index

/-- Reading a file, given by name and text. -/
def reading (f : Text × Text) : Operation :=
  .readFile f.1 f.2

theorem ofSources_eq_ok_iff {files : List (Text × Text)} :
    ofSources files = .ok y ↔ ∃ x, ofFiles (files.map Prod.fst) = .ok x ∧
      (∀ f ∈ files, (reading f).refusal? = none) ∧ y = x.after (files.map reading) := by
  have hplan : (files.map reading).flatMap Operation.plan =
      files.flatMap fun f => Plan.file f.1 f.2 := List.flatMap_map ..
  unfold ofSources
  cases ofFiles (files.map Prod.fst) with
  | error e => simp
  | ok x =>
      have hnone : Plan.refusal? (files.flatMap fun f => Plan.file f.1 f.2) = none ↔
          ∀ f ∈ files, (reading f).refusal? = none := by
        rw [Plan.refusal?_flatMap]
        exact List.findSome?_eq_none_iff
      simp only [refusal?_run, Except.ok.injEq, exists_eq_left', ← hnone]
      cases h : Plan.refusal? (files.flatMap fun f => Plan.file f.1 f.2) with
      | some e => simp
      | none =>
          have hfiles : ∀ op ∈ files.map reading, op.refusal? = none :=
            List.forall_mem_map.mpr (hnone.mp h)
          rw [x.after_eq_run hfiles, hplan]
          simp [eq_comm]

/-- The files have different modules, so reading one of them is apart from reading another. -/
theorem apart_reading {files : List (Text × Text)}
    (hnodup : (files.map fun f => moduleName f.1).Nodup) :
    ∀ p ∈ files.map reading, ∀ q ∈ files.map reading, p ≠ q → p.Apart q := by
  intro p hp q hq hpq hsame
  obtain ⟨f, hf, rfl⟩ := List.mem_map.mp hp
  obtain ⟨g, hg, rfl⟩ := List.mem_map.mp hq
  have hne : moduleName f.1 ≠ moduleName g.1 := fun he =>
    hpq (congrArg reading (List.inj_on_of_nodup_map hnodup hf hg he))
  change (moduleName f.1).toOption = (moduleName g.1).toOption at hsame
  change (moduleName f.1).toOption = none
  cases hmf : moduleName f.1 with
  | error e => rfl
  | ok m =>
      rw [hmf] at hsame hne
      cases hmg : moduleName g.1 with
      | error e => rw [hmg] at hsame; cases hsame
      | ok n => rw [hmg] at hsame hne; exact absurd (congrArg _ (Option.some.inj hsame)) hne

end Index

namespace History

variable {h k : History}

/-- Histories over the same modules have the same references if their operations are the same in
another order, each apart from the others. -/
theorem maps_of_perm (hmodules : ∀ m, m ∈ h.modules ↔ m ∈ k.modules)
    (hperm : h.operations.Perm k.operations)
    (hapart : ∀ p ∈ h.operations, ∀ q ∈ h.operations, p ≠ q → p.Apart q) :
    h.index.all = k.index.all ∧ h.index.inProject = k.index.inProject := by
  rw [index_eq_after, index_eq_after, ← k.start.after_perm hperm hapart]
  have hk := narrower_start fun m => (hmodules m).mp
  have hh := narrower_start fun m => (hmodules m).mpr
  exact ⟨Index.all_after (h.maps_start.1.trans k.maps_start.1.symm) h.operations,
    (hk.after h.operations).inProject.antisymm (hh.after h.operations).inProject⟩

theorem mem_modules_iff (h : History) (m : Text) :
    m ∈ h.modules ↔ .ok m ∈ h.filenames.map moduleName := by
  rw [h.map_moduleName, List.mem_map]
  simp

end History

namespace Index

variable {x y : Index}

/-- Files that were read into an index were read in a history. -/
theorem exists_history_of_sources {files : List (Text × Text)} (hy : ofSources files = .ok y) :
    ∃ h : History, h.filenames = files.map Prod.fst ∧ h.operations = files.map reading ∧
      h.index = y ∧ files.map (fun f => moduleName f.1) = y.moduleList.map .ok := by
  obtain ⟨x, hx, -, rfl⟩ := ofSources_eq_ok_iff.mp hy
  let h : History := ⟨files.map Prod.fst, x, hx, files.map reading⟩
  have hnames : files.map (fun f => moduleName f.1) = h.modules.map .ok := by
    rw [← h.map_moduleName]
    exact (List.map_map (l := files) (f := Prod.fst) (g := moduleName)).symm
  refine ⟨h, rfl, rfl, rfl, hnames.trans ?_⟩
  rw [← h.moduleList_index]
  rfl

/-- Whether files can be read into an index does not depend on their order. -/
theorem exists_ofSources_iff (files : List (Text × Text)) :
    (∃ y, ofSources files = .ok y) ↔
      ∀ f ∈ files, (∃ m, moduleName f.1 = .ok m) ∧ (reading f).refusal? = none := by
  have hnames := exists_ofFiles_iff (files.map Prod.fst)
  rw [List.forall_mem_map] at hnames
  simp only [ofSources_eq_ok_iff, forall_and, ← hnames]
  constructor
  · rintro ⟨y, x, hx, hfiles, -⟩
    exact ⟨⟨x, hx⟩, hfiles⟩
  · rintro ⟨⟨x, hx⟩, hfiles⟩
    exact ⟨_, x, hx, hfiles, rfl⟩

/-- **The order does not matter.**  Two operations that are about no module in common, carried out
on any index in either order, are answered alike and leave the same index.  And files of different
modules, read one after the other into the index over them, lead to an index in every order or in
none; all of these indexes hold the same references, and only their modules are in the order of
the files. -/
theorem order_irrelevant :
    (∀ (x : Index) (p q : Operation), p.Apart q →
      (x.after [p]).answer q = x.answer q ∧ (x.after [q]).answer p = x.answer p ∧
        x.after [p, q] = x.after [q, p]) ∧
    ∀ files files' : List (Text × Text), files.Perm files' →
      (files.map fun f => moduleName f.1).Nodup →
      ((∃ y, ofSources files = .ok y) ↔ ∃ y, ofSources files' = .ok y) ∧
      ∀ y y', ofSources files = .ok y → ofSources files' = .ok y' →
        y.all = y'.all ∧ y.inProject = y'.inProject ∧
          files.map (fun f => moduleName f.1) = y.moduleList.map .ok ∧
          files'.map (fun f => moduleName f.1) = y'.moduleList.map .ok := by
  refine ⟨fun x p q hpq => ⟨answer_eq .., answer_eq .., x.after_comm hpq⟩,
    fun files files' hperm hnodup => ⟨?_, fun y y' hy hy' => ?_⟩⟩
  · rw [exists_ofSources_iff, exists_ofSources_iff]
    exact forall_congr' fun f => imp_congr_left hperm.mem_iff
  · obtain ⟨h, hfiles, hops, rfl, hnames⟩ := exists_history_of_sources hy
    obtain ⟨k, hfiles', hops', rfl, hnames'⟩ := exists_history_of_sources hy'
    have hmodules (m : Text) : m ∈ h.modules ↔ m ∈ k.modules := by
      rw [h.mem_modules_iff, k.mem_modules_iff, hfiles, hfiles']
      exact ((hperm.map _).map _).mem_iff
    have hmaps : h.index.all = k.index.all ∧ h.index.inProject = k.index.inProject := by
      refine History.maps_of_perm hmodules ?_ ?_
      · rw [hops, hops']
        exact hperm.map _
      · rw [hops]
        exact apart_reading hnodup
    exact ⟨hmaps.1, hmaps.2, hnames, hnames'⟩

/-- A file beside one that is refused halfway, and a file beside one that imports it, in both
orders. -/
theorem twoFiles_swapped :
    let a := ("a.py".toList, "from b import x".toList)
    let refused := ("b.py".toList, "import a\nfrom . import y".toList)
    let c := ("c.py".toList, "import a, b".toList)
    let x : Index := .fresh (some [['a'], ['b']])
    (reading a).Apart (reading refused) ∧
      x.answer (reading refused) = .error (.depthExceeded ['.'] ['b'] 1) ∧
      x.after [reading a, reading refused] = x.after [reading refused, reading a] ∧
      [a, c].Perm [c, a] ∧ ([a, c].map fun f => moduleName f.1).Nodup ∧
      ∃ y y', ofSources [a, c] = .ok y ∧ ofSources [c, a] = .ok y' ∧
        y.all = y'.all ∧ y.inProject = y'.inProject ∧
        y.all.list ['c'] = [['a'], ['b']] ∧ y.inProject.list ['c'] = [['a']] := by
  intro a refused c x
  have hapart : (reading a).Apart (reading refused) := by decide
  have hperm : [a, c].Perm [c, a] := .swap c a []
  have hnodup : ([a, c].map fun f => moduleName f.1).Nodup := by decide
  obtain ⟨htwo, hfiles⟩ := order_irrelevant
  obtain ⟨-, hmaps⟩ := hfiles [a, c] [c, a] hperm hnodup
  obtain ⟨hall, hin, -⟩ := hmaps _ _ rfl rfl
  exact ⟨hapart, rfl, (htwo x _ _ hapart).2.2, hperm, hnodup, _, _, rfl, rfl, hall, hin,
    by decide, by decide⟩

end Index

end ImportXref

import ImportXref.Proofs.Discovery.Found
import ImportXref.Proofs.Index.Frame
import ImportXref.Scan

/-!
# Scans — a scan is a history of its files

A scan that succeeds read every file it found, and no file was refused.  So its index is the index
of the history over these files in which each of them is read once, in their order.

* `readFiles_eq_ok`: each file was read and not refused, and the index is what they left.
* `run_eq_ok`: what a scan that succeeds went through.
* `exists_history`: the history of a scan.
* `list_all_eq`, `list_inProject_eq`: the lists of a module are those that each file has for it on
  its own, one after the other.
-/

namespace ImportXref

open Reference (entriesOf weighted)

/-! ### Lists of several runs -/

namespace Reference

theorem entriesOf_flatMap {α : Type} (target : Text) (refs : α → List Reference) (l : List α) :
    entriesOf target (l.flatMap refs) = l.flatMap fun a => entriesOf target (refs a) := by
  simp only [entriesOf, List.filter_flatMap, List.map_flatMap]

theorem weighted_flatMap {α : Type} (weight : Text → Nat) (target : Text)
    (refs : α → List Reference) (l : List α) : weighted weight target (l.flatMap refs) =
      l.flatMap fun a => weighted weight target (refs a) := by
  simp only [weighted, List.filter_flatMap, List.flatMap_assoc]

end Reference

/-- What an operation records is about its target. -/
theorem Operation.target?_of_mem_recorded (op : Operation) {r : Reference}
    (hr : r ∈ Plan.recorded op.plan) : op.target? = some r.target := by
  obtain ⟨a, ha, har⟩ := List.mem_filterMap.mp hr
  refine op.touched?_of_mem_plan (List.takeWhile_subset _ ha) ?_
  cases a with
  | note | target | refuse => cases har
  | reference r' => cases har; rfl

/-! ### Reading files -/

/-- A run that is traced succeeds exactly if it is not refused. -/
theorem Index.Run.traced_eq_ok_iff {r : Index.Run} {x : Index} :
    r.traced.result = .ok x ↔ r.refusal? = none ∧ r.index = x := by
  unfold traced
  cases r.refusal? <;> simp

/-- A run that is traced fails with the refusal of the run. -/
theorem Index.Run.traced_eq_error_iff {r : Index.Run} {f : Failure} :
    r.traced.result = .error f ↔ ∃ e, r.refusal? = some e ∧ f = .ofCause (.record e) := by
  unfold traced
  cases r.refusal? <;> simp [eq_comm]

namespace Scan

variable {v : View} {root : Path} {patterns sources : List Text} {s : Scan}

/-- The text of a source file, empty if it cannot be read. -/
def textOf (v : View) (root : Path) (file : Text) : Text :=
  match (sourceText v root file).result with
  | .ok text => text
  | .error _ => []

/-- Reading a source file. -/
def reading (v : View) (root : Path) (file : Text) : Operation :=
  .readFile file (textOf v root file)

/-- Files that are all read have been read one after the other, each without a refusal. -/
theorem readFiles_eq_ok {x y : Index} {n m : Nat} {files : List Text}
    (h : (readFiles v root x n files).result = .ok (m, y)) :
    (∀ f ∈ files, (sourceText v root f).result = .ok (textOf v root f) ∧
      (reading v root f).refusal? = none) ∧
    y = x.after (files.map (reading v root)) := by
  induction files generalizing x n with
  | nil =>
      cases h
      exact ⟨fun f hf => absurd hf List.not_mem_nil, rfl⟩
  | cons f files ih =>
      obtain ⟨text, hread, h⟩ := Traced.result_andThen_eq_ok_iff.mp h
      obtain ⟨x', hx', h⟩ := Traced.result_andThen_eq_ok_iff.mp h
      obtain ⟨hnone, rfl⟩ :=
        Index.Run.traced_eq_ok_iff.mp (Traced.result_within_eq_ok_iff.mp hx')
      have htext : textOf v root f = text := by rw [textOf, hread]
      rw [Index.refusal?_run] at hnone
      subst htext
      obtain ⟨hfiles, rfl⟩ := ih h
      exact ⟨List.forall_mem_cons.mpr ⟨⟨hread, hnone⟩, hfiles⟩, rfl⟩

theorem result_freshIndex (files : List Text) : (freshIndex files).result =
    match Index.ofFiles files with
    | .ok x => .ok x
    | .error e => .error ⟨["failed to name project modules".toList], .record e⟩ := by
  unfold freshIndex
  cases Index.ofFiles files <;> rfl

/-- What a scan went through. -/
theorem run_eq_ok (hs : (run v root patterns sources).result = .ok s) :
    (Discovery.collect v root patterns sources).result = .ok s.files ∧
    (∀ f ∈ s.files, (sourceText v root f).result = .ok (textOf v root f) ∧
      (reading v root f).refusal? = none) ∧
    ∃ x, Index.ofFiles s.files = .ok x ∧ s.index = x.after (s.files.map (reading v root)) := by
  obtain ⟨files, hfiles, hs⟩ := Traced.result_andThen_eq_ok_iff.mp hs
  obtain ⟨x, hx, hs⟩ := Traced.result_andThen_eq_ok_iff.mp hs
  obtain ⟨⟨n, y⟩, hy, hs⟩ := Traced.result_andThen_eq_ok_iff.mp hs
  obtain ⟨hall, hindex⟩ := readFiles_eq_ok hy
  cases hs
  refine ⟨hfiles, hall, x, ?_, hindex⟩
  rw [result_freshIndex] at hx
  split at hx
  · next x' hof => exact Except.ok.inj hx ▸ hof
  · cases hx

/-- **A scan is a history.**  The index of a scan is the index over its files after each of them
was read once. -/
theorem exists_history (hs : (run v root patterns sources).result = .ok s) :
    ∃ h : History, h.filenames = s.files ∧ h.operations = s.files.map (reading v root) ∧
      h.index = s.index := by
  obtain ⟨-, -, x, hx, hindex⟩ := run_eq_ok hs
  exact ⟨⟨s.files, x, hx, s.files.map (reading v root)⟩, rfl, rfl, hindex.symm⟩

/-! ### The lists of a module, file by file -/

/-- The index of the project after only the file `file` was read. -/
def alone (v : View) (root : Path) (s : Scan) (file : Text) : Index :=
  ((Index.fresh s.index.modules).run (reading v root file).plan).index

/-- A file read alone leaves the entries that its plan records. -/
theorem list_all_alone (s : Scan) (f t : Text) :
    (alone v root s f).all.list t = entriesOf t (Plan.recorded (reading v root f).plan) := by
  rw [alone, Index.index_run, Index.list_all_foldl]
  rfl

theorem list_inProject_alone (s : Scan) (f t : Text) :
    (alone v root s f).inProject.list t = if s.index.isModule t then
      weighted s.index.hits t (Plan.recorded (reading v root f).plan) else [] := by
  rw [alone, Index.index_run, Index.list_inProject_foldl]
  rfl

/-- A file on its own has references of its own module only. -/
theorem list_alone_of_ne (s : Scan) {f t : Text} (h : moduleName f ≠ .ok t) :
    (alone v root s f).all.list t = [] ∧ (alone v root s f).inProject.list t = [] := by
  have hnone : (Plan.recorded (reading v root f).plan).filter (·.target = t) = [] := by
    refine List.filter_eq_nil_iff.mpr fun r hr ht => h ?_
    have htarget : (moduleName f).toOption = some r.target :=
      (reading v root f).target?_of_mem_recorded hr
    cases hm : moduleName f with
    | error e => rw [hm] at htarget; cases htarget
    | ok m => rw [hm] at htarget; cases htarget; exact congrArg _ (of_decide_eq_true ht)
  rw [list_all_alone, list_inProject_alone, entriesOf, weighted, hnone]
  simp

/-- The index of a scan is the fresh one after the actions of its history. -/
theorem exists_actions (hs : (run v root patterns sources).result = .ok s) :
    ∃ done : List Action, done.filterMap Action.recorded? =
        s.files.flatMap (fun f => Plan.recorded (reading v root f).plan) ∧
      s.index = done.foldl Action.apply (.fresh s.index.modules) := by
  obtain ⟨h, -, hops, hindex⟩ := exists_history hs
  obtain ⟨ms, hstart, -⟩ := h.start_eq_fresh
  have hmodules : s.index.modules = ms := by
    rw [← hindex, h.index_eq_foldl, Index.modules_foldl, hstart]
    rfl
  refine ⟨h.actions, ?_, ?_⟩
  · rw [h.recorded_actions, History.log, hops, List.flatMap_map]
  · rw [hmodules, ← hstart, ← h.index_eq_foldl, hindex]

/-- The list of a module is what each file has for it on its own, one after the other. -/
theorem list_all_eq (hs : (run v root patterns sources).result = .ok s) (t : Text) :
    s.index.all.list t = s.files.flatMap fun f => (alone v root s f).all.list t := by
  obtain ⟨done, hdone, hindex⟩ := exists_actions hs
  rw [hindex, Index.list_all_foldl, hdone, Reference.entriesOf_flatMap]
  exact List.flatMap_congr fun f _ => (list_all_alone s f t).symm

/-- So is its list inside the project. -/
theorem list_inProject_eq (hs : (run v root patterns sources).result = .ok s) (t : Text) :
    s.index.inProject.list t = s.files.flatMap fun f => (alone v root s f).inProject.list t := by
  obtain ⟨done, hdone, hindex⟩ := exists_actions hs
  have hlist : s.index.inProject.list t = if s.index.isModule t then
      weighted s.index.hits t (done.filterMap Action.recorded?) else [] := by
    refine (congrArg (·.inProject.list t) hindex).trans ?_
    exact Index.list_inProject_foldl done (.fresh s.index.modules) t
  simp only [hlist, hdone, list_inProject_alone]
  split
  · exact Reference.weighted_flatMap ..
  · exact (List.flatMap_eq_nil_iff.mpr fun f _ => rfl).symm

end Scan

end ImportXref

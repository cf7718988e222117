import ImportXref.Proofs.Index.Carried

/-!
# Index — the history of an index

A history is a list of declared files and the operations carried out on the index over them.  An
operation that is refused leaves what it did before, and the next one goes on from there.  The
*log* of a history holds the references that were recorded, in order.

**The index is its log** (`History.index_refines_log`): the list of a module is what the log has
for it; inside the project each entry counts once if its source is a declared module and once
more if its source followed by `__init__` is one; and the modules with a list inside the project
are the declared ones that have a list at all.
-/

namespace ImportXref

open Reference (entriesOf weighted)

/-- One operation on an index. -/
inductive Operation where
  /-- Gives a module its lists. -/
  | addTarget (module : Text)
  /-- Records one reference. -/
  | addReference (r : Reference)
  /-- Records the names of a clause, imported from one source. -/
  | addSelective (target source objects : Text)
  /-- Records imported modules. -/
  | addDirect (target : Text) (sources : List Text)
  /-- Records what a line of a file imports. -/
  | readLine (filename line : Text)
  /-- The same with another way to classify lines. -/
  | readLineWith (classify : Text → Statement) (filename line : Text)
  /-- Records what the text of a file imports. -/
  | readFile (filename text : Text)

/-- What an operation asks the index to do. -/
def Operation.plan : Operation → List Action
  | addTarget module => [.target module]
  | addReference r => [.reference r]
  | addSelective target source objects => Plan.selective target source objects
  | addDirect target sources => Plan.direct target sources
  | readLine filename line => Plan.line filename line
  | readLineWith classify filename line => Plan.lineWith classify filename line
  | readFile filename text => Plan.file filename text

/-- The modules of the declared files. -/
def declaredModules (filenames : List Text) : List Text :=
  filenames.filterMap fun f => (moduleName f).toOption

/-- Operations on an index over declared files. -/
structure History where
  /-- The declared files. -/
  filenames : List Text
  /-- The index over them. -/
  start : Index
  /-- Every declared file has a module name. -/
  ofFiles_filenames : Index.ofFiles filenames = .ok start
  /-- The operations, the first one first. -/
  operations : List Operation

namespace History

/-- The declared modules. -/
def modules (h : History) : List Text :=
  declaredModules h.filenames

/-- The index after all operations. -/
def index (h : History) : Index :=
  h.operations.foldl (fun x op => (x.run op.plan).index) h.start

/-- The actions that the operations carried out. -/
def actions (h : History) : List Action :=
  h.operations.flatMap fun op => Plan.carriedOut op.plan

/-- The references that the operations recorded. -/
def log (h : History) : List Reference :=
  h.operations.flatMap fun op => Plan.recorded op.plan

/-! ### The fresh index -/

/-- If all files have names of modules, these are the names one by one. -/
theorem map_moduleName_of_mapM {filenames names : List Text}
    (h : filenames.mapM moduleName = .ok names) :
    filenames.map moduleName = names.map .ok := by
  induction filenames generalizing names with
  | nil => cases h; rfl
  | cons f rest ih =>
      rw [List.mapM_cons] at h
      cases hf : moduleName f with
      | error e => rw [hf] at h; cases h
      | ok m =>
          rw [hf] at h
          cases hr : rest.mapM moduleName with
          | error e => rw [hr] at h; cases h
          | ok ms =>
              rw [hr] at h
              cases h
              rw [List.map_cons, List.map_cons, hf, ih hr]

/-- If all files have names of modules, all of these are declared. -/
theorem declaredModules_of_mapM {filenames names : List Text}
    (h : filenames.mapM moduleName = .ok names) : declaredModules filenames = names := by
  have hmap : declaredModules filenames = (filenames.map moduleName).filterMap Except.toOption := by
    rw [List.filterMap_map]
    rfl
  rw [hmap, map_moduleName_of_mapM h, List.filterMap_map]
  exact List.filterMap_some

/-- The index over the declared files has their modules and no references. -/
theorem start_eq_fresh (h : History) :
    ∃ ms, h.start = .fresh ms ∧ ms.getD [] = h.modules := by
  obtain ⟨filenames, start, hs, ops⟩ := h
  cases filenames with
  | nil => cases hs; exact ⟨none, rfl, rfl⟩
  | cons f rest =>
      obtain ⟨names, hn, rfl⟩ : ∃ names, (f :: rest).mapM moduleName = .ok names ∧
          start = .fresh (some names) := by
        cases hm : (f :: rest).mapM moduleName with
        | error e => simp only [Index.ofFiles, hm] at hs; cases hs
        | ok names => simp only [Index.ofFiles, hm] at hs; cases hs; exact ⟨names, rfl, rfl⟩
      exact ⟨some names, rfl, (declaredModules_of_mapM hn).symm⟩

/-- Every declared file has a module, and these are the declared modules. -/
theorem map_moduleName (h : History) : h.filenames.map moduleName = h.modules.map .ok := by
  obtain ⟨filenames, start, hs, ops⟩ := h
  cases filenames with
  | nil => rfl
  | cons f rest =>
      cases hm : (f :: rest).mapM moduleName with
      | error e => simp only [Index.ofFiles, hm] at hs; cases hs
      | ok names =>
          rw [modules, declaredModules_of_mapM hm]
          exact map_moduleName_of_mapM hm

theorem index_eq_foldl (h : History) : h.index = h.actions.foldl Action.apply h.start := by
  obtain ⟨filenames, start, hs, ops⟩ := h
  simp only [index, actions]
  clear hs
  induction ops generalizing start with
  | nil => rfl
  | cons op ops ih =>
      rw [List.foldl_cons, ih, Index.index_run, List.flatMap_cons, List.foldl_append]

theorem refusal?_of_mem_log (h : History) {r : Reference} (hr : r ∈ h.log) :
    r.refusal? = none := by
  obtain ⟨op, -, hop⟩ := List.mem_flatMap.mp hr
  exact Plan.refusal?_of_mem_recorded hop

/-- The log is what the actions of a history record. -/
theorem recorded_actions (h : History) : h.actions.filterMap Action.recorded? = h.log :=
  List.filterMap_flatMap ..

/-! ### The lists -/

/-- The modules of the fresh index are those that the files declare. -/
theorem isModule_start (h : History) (m : Text) : h.start.isModule m = true ↔ m ∈ h.modules := by
  obtain ⟨ms, hs, hm⟩ := h.start_eq_fresh
  rw [hs, ← hm]
  exact List.contains_iff_mem

/-- No operation changes the list of modules. -/
theorem moduleList_index (h : History) : h.index.moduleList = h.modules := by
  obtain ⟨ms, hs, hm⟩ := h.start_eq_fresh
  rw [Index.moduleList, index_eq_foldl, Index.modules_foldl, hs]
  exact hm

/-- How often a reference to `source` counts inside the project of a history. -/
def weight (h : History) (source : Text) : Nat :=
  (if source ∈ h.modules then 1 else 0) +
    if source ++ "__init__".toList ∈ h.modules then 1 else 0

theorem hits_start (h : History) : h.start.hits = h.weight := by
  funext source
  simp only [Index.hits, weight, isModule_start]
  rfl

/-- **The list of a module** is what the log has for it. -/
theorem list_all (h : History) (t : Text) : h.index.all.list t = entriesOf t h.log := by
  obtain ⟨ms, hs, -⟩ := h.start_eq_fresh
  rw [index_eq_foldl, Index.list_all_foldl, recorded_actions, hs]
  rfl

/-- **The list of a module inside the project** is what the log has for it, each entry as often as
its source counts. -/
theorem list_inProject (h : History) {t : Text} (ht : t ∈ h.modules) :
    h.index.inProject.list t = weighted h.weight t h.log := by
  obtain ⟨ms, hs, -⟩ := h.start_eq_fresh
  rw [index_eq_foldl, Index.list_inProject_foldl, if_pos ((h.isModule_start t).mpr ht),
    hits_start, recorded_actions, hs]
  rfl

/-! ### The keys -/

/-- **The modules with a list inside the project** are the declared ones that have a list at all. -/
theorem mem_keys_inProject (h : History) (t : Text) :
    t ∈ h.index.inProject.keys ↔ t ∈ h.index.all.keys ∧ t ∈ h.modules := by
  obtain ⟨ms, hs, -⟩ := h.start_eq_fresh
  have hall : t ∈ h.start.all.keys ↔ False := by simp [hs, Index.fresh, RefMap.keys, RefMap.empty]
  have hin : t ∈ h.start.inProject.keys ↔ False := by
    simp [hs, Index.fresh, RefMap.keys, RefMap.empty]
  rw [index_eq_foldl, Index.mem_keys_inProject_foldl, Index.mem_keys_all_foldl, hall, hin,
    false_or, false_or, isModule_start]

/-- An index without keys inside the project has no references there. -/
theorem inProject_eq_empty (h : History) (hm : h.modules = []) : h.index.inProject = .empty := by
  refine RefMap.ext_find? fun t => Option.not_isSome_iff_eq_none.mp fun hs => ?_
  have ht := ((h.mem_keys_inProject t).mp (RefMap.find?_isSome_iff.mp hs)).2
  simp [hm] at ht

/-! ### The numbers of references -/

theorem inProjectCount_le (h : History) :
    h.index.inProjectCount ≤ 2 * h.index.referenceCount := by
  obtain ⟨ms, hs, -⟩ := h.start_eq_fresh
  have hstart : h.start.inProjectCount ≤ 2 * h.start.referenceCount := by
    rw [hs]
    exact Nat.zero_le _
  rw [index_eq_foldl]
  exact Index.inProjectCount_foldl h.actions hstart

/-! ### The refinement -/

/-- **The index is its log.**  After any operations on the index over the declared files, refused
or not, the list of every module holds the entries that the log has for it, in order; inside the
project the list of a declared module holds the same entries, each as often as its source and its
source followed by `__init__` are declared; and the modules with a list inside the project are
the declared ones with a list.  So a reference counts at most twice inside the project, and an
index without declared files has nothing there. -/
theorem index_refines_log (h : History) :
    (∀ t, h.index.all.list t = (h.log.filter (·.target = t)).map Reference.entry) ∧
    (∀ t ∈ h.modules, h.index.inProject.list t =
      (h.log.filter (·.target = t)).flatMap fun r =>
        List.replicate ((if r.source ∈ h.modules then 1 else 0) +
          if r.source ++ "__init__".toList ∈ h.modules then 1 else 0) r.entry) ∧
    (∀ t, t ∈ h.index.inProject.keys ↔ t ∈ h.index.all.keys ∧ t ∈ h.modules) ∧
    h.index.inProjectCount ≤ 2 * h.index.referenceCount ∧
    (h.filenames = [] → h.index.inProject = .empty) := by
  refine ⟨h.list_all, fun t ht => h.list_inProject ht, h.mem_keys_inProject,
    h.inProjectCount_le, fun hf => h.inProject_eq_empty ?_⟩
  rw [modules, hf]
  rfl

end History

end ImportXref

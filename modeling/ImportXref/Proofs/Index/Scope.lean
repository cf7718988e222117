import ImportXref.Proofs.Index.Frame
import Mathlib.Data.List.Basic

/-!
# Index — what the declared modules decide

The declared modules decide what is kept inside the project, and nothing else.  Take one sequence
of operations on the indexes over two lists of declared files: every operation is answered alike,
and after each of them both indexes hold the same references among all.  If the modules of the
first list are modules of the second, the first index has nothing inside the project that the
second one has not.

* `RefMap.Within`: a map whose lists are subsequences of those of another.
* `Index.grow`: what an action does to the lists of its module.
* `Index.Narrower`: an index over fewer modules, with less inside the project; `Narrower.apply`,
  `Narrower.after`: one action, and operations one after the other, keep it so.
* `History.scope_only_adds`: the comparison of two histories with the same operations.
-/

namespace ImportXref

/-! ### Maps within maps -/

/-- Every key of `m` is one of `m'`, and its list is a subsequence of the list there. -/
def RefMap.Within (m m' : RefMap) : Prop :=
  ∀ k xs, m.find? k = some xs → ∃ ys, m'.find? k = some ys ∧ xs.Sublist ys

namespace RefMap

variable {m m' : RefMap} {k : Text} {xs ys : List Text}

theorem Within.refl (m : RefMap) : Within m m :=
  fun _ xs h => ⟨xs, h, List.Sublist.refl xs⟩

/-- A list of a map within another is a subsequence of the list there. -/
theorem Within.list (h : Within m m') (k : Text) : (m.list k).Sublist (m'.list k) := by
  cases hk : m.find? k with
  | none => rw [RefMap.list, hk]; exact List.nil_sublist _
  | some xs =>
      obtain ⟨ys, hys, hsub⟩ := h k xs hk
      rw [RefMap.list, RefMap.list, hk, hys]
      exact hsub

theorem Within.mem_keys (h : Within m m') (hk : k ∈ m.keys) : k ∈ m'.keys := by
  obtain ⟨xs, hxs⟩ := Option.isSome_iff_exists.mp (find?_isSome_iff.mpr hk)
  obtain ⟨ys, hys, -⟩ := h k xs hxs
  exact find?_isSome_iff.mp (Option.isSome_iff_exists.mpr ⟨ys, hys⟩)

/-- A map stays within another if the same list grows in both, in the second at least as much. -/
theorem Within.extend (h : Within m m') (hs : xs.Sublist ys) (k : Text) :
    Within (m.extend k xs) (m'.extend k ys) := by
  intro j zs hj
  rw [find?_extend] at hj ⊢
  by_cases hjk : j = k
  · rw [if_pos hjk] at hj ⊢
    obtain rfl := Option.some.inj hj
    exact ⟨_, rfl, (h.list k).append hs⟩
  · rw [if_neg hjk] at hj ⊢
    exact h j zs hj

/-- A map stays within another whose lists grow. -/
theorem Within.extend_right (h : Within m m') (k : Text) (ys : List Text) :
    Within m (m'.extend k ys) := by
  intro j zs hj
  obtain ⟨old, hold, hsub⟩ := h j zs hj
  obtain ⟨new, hnew, hpre⟩ := (grows_extend m' k ys).kept j old hold
  exact ⟨new, hnew, hsub.trans hpre.sublist⟩

/-- Maps within each other are equal. -/
theorem Within.antisymm (h : Within m m') (h' : Within m' m) : m = m' := by
  refine ext_find? fun k => ?_
  cases hk : m.find? k with
  | none =>
      cases hk' : m'.find? k with
      | none => rfl
      | some ys =>
          obtain ⟨xs, hxs, -⟩ := h' k ys hk'
          rw [hk] at hxs
          cases hxs
  | some xs =>
      obtain ⟨ys, hys, hsub⟩ := h k xs hk
      obtain ⟨zs, hzs, hsub'⟩ := h' k ys hys
      obtain rfl : xs = zs := Option.some.inj (hk.symm.trans hzs)
      rw [hys, hsub.antisymm hsub']

end RefMap

namespace Index

variable {x y : Index}

/-! ### What an action does to the lists of its module -/

/-- Adds `new` to the list of `t` among all references, and `inside` to its list inside the
project if it is a module of it. -/
def grow (x : Index) (t : Text) (new inside : List Text) : Index :=
  { x with
    all := x.all.extend t new
    inProject := if x.isModule t then x.inProject.extend t inside else x.inProject }

@[simp] theorem hits_grow (x : Index) (t : Text) (new inside : List Text) (source : Text) :
    (x.grow t new inside).hits source = x.hits source := rfl

/-- To give a module its lists is to grow them by nothing. -/
theorem apply_target (x : Index) (t : Text) :
    (Action.target t).apply x = x.grow t [] [] := rfl

/-- To record a reference is to grow the lists of its target by its entry. -/
theorem apply_reference (x : Index) (r : Reference) :
    (Action.reference r).apply x =
      x.grow r.target [r.entry] (List.replicate (x.hits r.source) r.entry) := rfl

/-! ### Two indexes over different modules -/

/-- `x` has no module but those of `y`, and nothing inside the project that `y` has not. -/
structure Narrower (x y : Index) : Prop where
  modules : ∀ m, x.isModule m = true → y.isModule m = true
  inProject : x.inProject.Within y.inProject

/-- A source counts in the wider project at least as often. -/
theorem Narrower.hits_le (h : x.Narrower y) (source : Text) : x.hits source ≤ y.hits source := by
  have counts (m : Text) : (if x.isModule m then 1 else 0) ≤ if y.isModule m then 1 else 0 := by
    by_cases hm : x.isModule m = true
    · rw [if_pos hm, if_pos (h.modules m hm)]
    · rw [if_neg hm]
      exact Nat.zero_le _
  exact Nat.add_le_add (counts source) (counts _)

/-- Growth keeps an index narrower, if it gets no more inside the project than the other one. -/
theorem Narrower.grow (h : x.Narrower y) (t : Text) (new : List Text) {inside inside' : List Text}
    (hs : inside.Sublist inside') : (x.grow t new inside).Narrower (y.grow t new inside') := by
  refine ⟨h.modules, ?_⟩
  show (if x.isModule t then x.inProject.extend t inside else x.inProject).Within
    (if y.isModule t then y.inProject.extend t inside' else y.inProject)
  by_cases hx : x.isModule t = true
  · rw [if_pos hx, if_pos (h.modules t hx)]
    exact h.inProject.extend hs t
  · rw [if_neg hx]
    -- `t` may be a module of the wider project only
    split
    · exact h.inProject.extend_right t inside'
    · exact h.inProject

/-- **An action keeps an index narrower**, as its sources count no more often there. -/
theorem Narrower.apply (h : x.Narrower y) (a : Action) : (a.apply x).Narrower (a.apply y) := by
  cases a with
  | note | refuse => exact h
  | target t =>
      rw [apply_target, apply_target]
      exact h.grow t [] (List.Sublist.refl [])
  | reference r =>
      rw [apply_reference, apply_reference]
      exact h.grow r.target [r.entry] (List.replicate_sublist_replicate r.entry |>.mpr
        (h.hits_le r.source))

/-- A run keeps an index narrower, whatever is refused. -/
theorem Narrower.run (h : x.Narrower y) (plan : List Action) :
    (x.run plan).index.Narrower (y.run plan).index := by
  rw [index_run, index_run]
  -- both runs carry out the same actions
  generalize Plan.carriedOut plan = done
  induction done generalizing x y with
  | nil => exact h
  | cons a done ih => exact ih (h.apply a)

/-- **Operations one after the other keep an index narrower.** -/
theorem Narrower.after (h : x.Narrower y) (ops : List Operation) :
    (x.after ops).Narrower (y.after ops) := by
  induction ops generalizing x y with
  | nil => exact h
  | cons op ops ih => exact ih (h.run op.plan)

theorem all_apply (h : x.all = y.all) (a : Action) : (a.apply x).all = (a.apply y).all := by
  cases a with
  | note | refuse => exact h
  | target t => exact congrArg (·.extend t []) h
  | reference r => exact congrArg (·.extend r.target [r.entry]) h

theorem all_run (h : x.all = y.all) (plan : List Action) :
    (x.run plan).index.all = (y.run plan).index.all := by
  rw [index_run, index_run]
  generalize Plan.carriedOut plan = done
  induction done generalizing x y with
  | nil => exact h
  | cons a done ih => exact ih (all_apply h a)

/-- What operations leave among all references depends on these alone. -/
theorem all_after (h : x.all = y.all) (ops : List Operation) :
    (x.after ops).all = (y.after ops).all := by
  induction ops generalizing x y with
  | nil => exact h
  | cons op ops ih => exact ih (all_run h op.plan)

end Index

/-! ### Answers -/

/-- The number of import lines that an operation finds, in the text it reads. -/
def Operation.importLines : Operation → Nat
  | addTarget _ | addReference _ | addSelective .. | addDirect .. | readLine .. | readLineWith .. => 0
  | readFile _ text => (Statement.importLines text).length

namespace Index

variable {x y : Index}

/-- What an operation on an index comes to: the number of import lines it found, or why it was
refused. -/
def answer (x : Index) (op : Operation) : Except RecordError Nat :=
  match (x.run op.plan).refusal? with
  | some e => .error e
  | none => .ok op.importLines

/-- Every index gives the same answer. -/
theorem answer_eq (x y : Index) (op : Operation) : x.answer op = y.answer op := by
  rw [answer, answer, refusal?_run, refusal?_run]

/-- What shows of operations one after the other without a look inside the project: the answer to
each of them, and all references after it. -/
def trace (x : Index) : List Operation → List (Except RecordError Nat × RefMap)
  | [] => []
  | op :: ops =>
    (x.answer op, (x.run op.plan).index.all) :: (x.run op.plan).index.trace ops

/-- **The declared modules do not show** in the answers or among all references. -/
theorem trace_eq (h : x.all = y.all) (ops : List Operation) : x.trace ops = y.trace ops := by
  induction ops generalizing x y with
  | nil => rfl
  | cons op ops ih =>
      have hall := all_run h op.plan
      rw [trace, trace, x.answer_eq y, hall, ih hall]

end Index

/-! ### Two histories -/

namespace History

theorem index_eq_after (h : History) : h.index = h.start.after h.operations := rfl

/-- The start of a history has no references. -/
theorem maps_start (h : History) : h.start.all = .empty ∧ h.start.inProject = .empty := by
  obtain ⟨ms, hs, -⟩ := h.start_eq_fresh
  rw [hs]
  exact ⟨rfl, rfl⟩

/-- Over fewer modules, the fresh index is narrower. -/
theorem narrower_start {h k : History} (hmodules : ∀ m ∈ h.modules, m ∈ k.modules) :
    h.start.Narrower k.start where
  modules m hm := (k.isModule_start m).mpr (hmodules m ((h.isModule_start m).mp hm))
  inProject := by
    rw [h.maps_start.2, k.maps_start.2]
    exact .refl _

/-- **The scope only adds inside the project.**  Let two histories have the same operations over
different declared files.  Then every operation is answered alike, and all references are the same
after each of them.  And if the modules of the first are modules of the second, every module with
a list inside the first project has one inside the second, of which its list is a subsequence. -/
theorem scope_only_adds (h k : History) (hops : h.operations = k.operations) :
    h.start.trace h.operations = k.start.trace k.operations ∧
    ((∀ m ∈ h.modules, m ∈ k.modules) →
      ∀ t ∈ h.index.inProject.keys, t ∈ k.index.inProject.keys ∧
        (h.index.inProject.list t).Sublist (k.index.inProject.list t)) := by
  refine ⟨?_, fun hmodules t ht => ?_⟩
  · rw [hops]
    exact Index.trace_eq (h.maps_start.1.trans k.maps_start.1.symm) k.operations
  · have hnarrower : h.index.Narrower k.index := by
      rw [index_eq_after, index_eq_after, hops]
      exact (narrower_start hmodules).after k.operations
    exact ⟨hnarrower.inProject.mem_keys ht, hnarrower.inProject.list t⟩

/-- Over the given files, `a.py` imports from `b`, and then reaches beyond its top-level package. -/
def importsOfB (filenames : List Text) (start : Index)
    (hstart : Index.ofFiles filenames = .ok start) : History where
  filenames := filenames
  start := start
  ofFiles_filenames := hstart
  operations := [.readLine "a.py".toList "from b import x".toList,
    .readFile "a.py".toList "import b\nfrom .. import z".toList]

/-- Another declared file, whose module is `b` followed by `__init__`, lets every reference to `b`
count twice. -/
theorem importsOfB_counted_twice :
    let h := importsOfB ["a.py".toList, "b.py".toList]
      (.fresh (some ["a".toList, "b".toList])) rfl
    let k := importsOfB ["b__init__.py".toList, "b.py".toList, "a.py".toList]
      (.fresh (some ["b__init__".toList, "b".toList, "a".toList])) rfl
    h.operations = k.operations ∧ (∀ m ∈ h.modules, m ∈ k.modules) ∧
      "a".toList ∈ h.index.inProject.keys ∧
      h.start.trace h.operations = k.start.trace k.operations ∧
      h.index.inProject.list "a".toList = ["b.x".toList, "b".toList] ∧
      k.index.inProject.list "a".toList =
        ["b.x".toList, "b.x".toList, "b".toList, "b".toList] ∧
      (h.index.inProject.list "a".toList).Sublist (k.index.inProject.list "a".toList) := by
  intro h k
  have hmodules : ∀ m ∈ h.modules, m ∈ k.modules := by decide
  have hkey : "a".toList ∈ h.index.inProject.keys := by decide
  obtain ⟨htrace, hadds⟩ := scope_only_adds h k rfl
  exact ⟨rfl, hmodules, hkey, htrace, by decide, by decide, (hadds hmodules _ hkey).2⟩

end History

end ImportXref

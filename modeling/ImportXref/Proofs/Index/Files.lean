import ImportXref.Proofs.Index.History

/-!
# Index — runs put together from runs

What is refused does not depend on the index, so a run over several plans is refused where the
first of them is, and up to there it is the runs of the plans one after the other.

* `index_run_append`, `index_run_of_refused`: a run over two plans, the first not refused, and a
  run up to the action that is refused.
* `refusal?_flatMap`: the first refusal of several plans.
* `index_run_file`, `refusal?_file`: reading a file is reading its import lines; what is only
  reported leaves no trace.
-/

namespace ImportXref

namespace Plan

theorem refusal?_append (p q : List Action) :
    refusal? (p ++ q) = (refusal? p).or (refusal? q) :=
  List.findSome?_append

/-- A plan is refused at the first action that is. -/
theorem refusal?_of_refused {done rest : List Action} {a : Action} {e : RecordError}
    (hdone : refusal? done = none) (ha : a.refusal? = some e) :
    refusal? (done ++ a :: rest) = some e := by
  rw [refusal?_append, hdone, Option.none_or, refusal?, List.findSome?_cons, ha]

/-- Several plans one after the other are refused where the first of them is. -/
theorem refusal?_flatMap {α : Type} (plan : α → List Action) (l : List α) :
    refusal? (l.flatMap plan) = l.findSome? fun a => refusal? (plan a) := by
  induction l with
  | nil => rfl
  | cons a l ih =>
      rw [List.flatMap_cons, refusal?_append, ih, List.findSome?_cons]
      cases refusal? (plan a) with
      | none => rfl
      | some e => rfl

theorem refusal?_notes (events : List Event) (plan : List Action) :
    refusal? (events.map .note ++ plan) = refusal? plan := by
  have hnone : refusal? (events.map Action.note) = none := by
    refine List.findSome?_eq_none_iff.mpr fun a ha => ?_
    obtain ⟨event, -, rfl⟩ := List.mem_map.mp ha
    rfl
  rw [refusal?_append, hnone, Option.none_or]

end Plan

namespace Index

/-- A plan that is not refused is carried out before the next one. -/
theorem index_run_append (x : Index) {p : List Action} (hp : Plan.refusal? p = none)
    (q : List Action) : (x.run (p ++ q)).index = ((x.run p).index.run q).index := by
  rw [run_append, Run.andThen, refusal?_run, hp]

/-- Nothing of an action that is refused is carried out, and nothing after it. -/
theorem index_run_of_refused (x : Index) {done rest : List Action} {a : Action} {e : RecordError}
    (hdone : Plan.refusal? done = none) (ha : a.refusal? = some e) :
    (x.run (done ++ a :: rest)).index = (x.run done).index := by
  rw [index_run_append x hdone, run, ha]

/-- What is only reported leaves no trace. -/
theorem index_run_notes (x : Index) (events : List Event) (plan : List Action) :
    (x.run (events.map .note ++ plan)).index = (x.run plan).index := by
  induction events with
  | nil => rfl
  | cons event events ih => exact ih

end Index

/-! ### Files -/

/-- What the import lines of a file ask for, without what is reported about the file. -/
def Plan.importLines (filename text : Text) : List Action :=
  (Statement.importLines text).flatMap (Plan.line filename)

/-- A file asks for what its import lines ask for, among reports. -/
theorem Plan.file_eq_notes (filename text : Text) :
    ∃ before after : List Event, Plan.file filename text =
      before.map .note ++ (Plan.importLines filename text ++ after.map .note) := by
  unfold Plan.file Plan.importLines
  cases Statement.importLines text with
  | nil => exact ⟨.analysing filename :: Statement.importEvents text, [.noImports filename], rfl⟩
  | cons l ls => exact ⟨.analysing filename :: Statement.importEvents text, [], by simp⟩

theorem Plan.refusal?_file (filename text : Text) :
    Plan.refusal? (Plan.file filename text) =
      (Statement.importLines text).findSome? fun l => Plan.refusal? (Plan.line filename l) := by
  obtain ⟨before, after, h⟩ := Plan.file_eq_notes filename text
  have hafter : Plan.refusal? (after.map Action.note) = none := by
    simpa [Plan.refusal?] using Plan.refusal?_notes after []
  rw [h, Plan.refusal?_notes, Plan.refusal?_append, hafter, Option.or_none, Plan.importLines,
    Plan.refusal?_flatMap]

/-- Reading a file leaves what reading its import lines leaves. -/
theorem Index.index_run_file (x : Index) (filename text : Text) :
    (x.run (Plan.file filename text)).index = (x.run (Plan.importLines filename text)).index := by
  obtain ⟨before, after, h⟩ := Plan.file_eq_notes filename text
  rw [h, Index.index_run_notes, Index.run_append, Index.Run.andThen]
  cases (x.run (Plan.importLines filename text)).refusal? with
  | some e => rfl
  | none => simpa [Index.run] using Index.index_run_notes _ after []

end ImportXref

import ImportXref.Index.Basic
import ImportXref.Relative
import ImportXref.Statement.Source

/-!
# Plans — what a line or a file asks the index to do

A statement, a line or a file is turned into a list of actions without looking at the index, and
`Index.run` carries the actions out one after the other until one is refused.  What was done
before a refusal stays done.

* `run_append`: running two lists one after the other is running their concatenation;
* `refusal?_run`: whether and why a run is refused does not depend on the index.
-/

namespace ImportXref

/-- One action on an index. -/
inductive Action where
  /-- Only reports an event. -/
  | note (event : Event)
  /-- Gives a module its lists. -/
  | target (module : Text)
  /-- Checks and records a reference. -/
  | reference (r : Reference)
  /-- Ends the run. -/
  | refuse (e : RecordError)
  deriving DecidableEq, Repr

namespace Action

/-- What an action reports before it is carried out. -/
def events : Action → List Event
  | note event => [event]
  | target module => [.addingTarget module]
  | reference r => [.addingEntry r.target r.source r.symbol]
  | refuse _ => []

/-- Why an action is refused. -/
def refusal? : Action → Option RecordError
  | note _ | target _ => none
  | reference r => r.refusal?
  | refuse e => some e

/-- The effect of an action that is not refused. -/
def apply (x : Index) : Action → Index
  | note _ | refuse _ => x
  | target module => x.addTarget module
  | reference r => x.record r

end Action

/-- What a list of actions left behind. -/
structure Index.Run where
  /-- The index after the last action that was carried out. -/
  index : Index
  /-- What was reported. -/
  events : List Event
  /-- Why the run ended early. -/
  refusal? : Option RecordError

/-- Carries out actions until one is refused. -/
def Index.run (x : Index) : List Action → Index.Run
  | [] => ⟨x, [], none⟩
  | a :: plan =>
    match a.refusal? with
    | some e => ⟨x, a.events, some e⟩
    | none =>
      let rest := (a.apply x).run plan
      ⟨rest.index, a.events ++ rest.events, rest.refusal?⟩

/-- Goes on with `next` unless the run ended early. -/
def Index.Run.andThen (r : Index.Run) (next : Index → Index.Run) : Index.Run :=
  match r.refusal? with
  | some _ => r
  | none =>
    let rest := next r.index
    ⟨rest.index, r.events ++ rest.events, rest.refusal?⟩

/-! ### Plans of statements, lines and files -/

namespace Plan

/-- `target` imports from `source`, as written, the names of the clause `objects`.  The source is
resolved before `target` gets its lists. -/
def selective (target source objects : Text) : List Action :=
  match resolve target source with
  | .error e => [.refuse e]
  | .ok package =>
    .target target ::
      (Clause.names objects).map fun symbol => .reference ⟨target, package, some symbol⟩

/-- `target` imports one module, given as written. -/
def directSource (target source : Text) : Action :=
  match absoluteName source (locations target) with
  | .error e => .refuse e
  | .ok package => .reference ⟨target, package, none⟩

/-- `target` imports the modules `sources`, as written. -/
def direct (target : Text) (sources : List Text) : List Action :=
  .target target :: sources.map (directSource target)

/-- What `target` does with a statement. -/
def statement (target : Text) : Statement → List Action
  | .selective source objects => selective target source objects
  | .direct sources => direct target sources
  | .other => []

/-- A line of the file `filename` that `classify` turns into a statement. -/
def lineWith (classify : Text → Statement) (filename line : Text) : List Action :=
  .note (.parsing line filename) ::
    match moduleName filename with
    | .error e => [.refuse e]
    | .ok target => statement target (classify line)

/-- A line of the file `filename`. -/
def line (filename line : Text) : List Action :=
  lineWith Statement.ofLine filename line

/-- The text of the file `filename`.  A file without import lines needs no module name. -/
def file (filename text : Text) : List Action :=
  .note (.analysing filename) :: (Statement.importEvents text).map .note ++
    match Statement.importLines text with
    | [] => [.note (.noImports filename)]
    | lines => lines.flatMap (line filename)

end Plan

/-- Why a list of actions is refused, whatever the index. -/
def Plan.refusal? (plan : List Action) : Option RecordError :=
  plan.findSome? Action.refusal?

namespace Index

/-- A plan in two parts runs one after the other, unless the first is refused. -/
theorem run_append (x : Index) (p q : List Action) :
    x.run (p ++ q) = (x.run p).andThen (·.run q) := by
  induction p generalizing x with
  | nil => rfl
  | cons a p ih =>
    simp only [List.cons_append, run]
    cases a.refusal? with
    | some e => rfl
    | none =>
      simp only [ih, Run.andThen]
      cases h : ((a.apply x).run p).refusal? <;> simp [h]

/-- Whether a run is refused depends on its plan alone. -/
theorem refusal?_run (x : Index) (plan : List Action) :
    (x.run plan).refusal? = Plan.refusal? plan := by
  induction plan generalizing x with
  | nil => rfl
  | cons a plan ih =>
    simp only [run, Plan.refusal?, List.findSome?_cons]
    cases a.refusal? with
    | some e => rfl
    | none => exact ih _

end Index

end ImportXref

import ImportXref.Index.RefMap
import ImportXref.ModuleName
import ImportXref.Text.Blank

/-!
# The index — which module refers to what

An index holds every recorded reference of every importing module (`all`) and, for the modules of
the project, the references whose source is in the project (`inProject`).  An index over no
modules is unscoped: it has no project and `inProject` stays empty.
-/

namespace ImportXref

/-- A reference in the making: `target` imports `symbol` from `source`, or `source` itself. -/
structure Reference where
  /-- The importing module. -/
  target : Text
  /-- The absolute name it imports from. -/
  source : Text
  /-- The symbol it imports, if it names one. -/
  symbol : Option Text
  deriving DecidableEq, Repr

namespace Reference

/-- How the reference is recorded: `source.symbol`, or `source` alone. -/
def entry (r : Reference) : Text :=
  match r.symbol with
  | some symbol => r.source ++ '.' :: symbol
  | none => r.source

/-- A symbol is one word of a dotted name: not blank and without a dot. -/
def wellFormedSymbol (symbol : Text) : Bool :=
  !symbol.all isBlank && !symbol.contains '.'

/-- Why the reference cannot be recorded.  The source is checked before the symbol. -/
def refusal? (r : Reference) : Option RecordError :=
  if r.source.any isSeparator then some (.separatorInSource r.source)
  else match r.symbol with
    | some symbol => if wellFormedSymbol symbol then none else some (.malformedSymbol symbol)
    | none => none

end Reference

/-- The cross-reference index of a project. -/
structure Index where
  /-- The modules of the project in their declared order, if the index has a project. -/
  modules : Option (List Text)
  /-- Every reference of every importing module. -/
  all : RefMap
  /-- The references of the project's modules to each other. -/
  inProject : RefMap

namespace Index

/-- The index without references over the project `modules`. -/
def fresh (modules : Option (List Text)) : Index :=
  ⟨modules, .empty, .empty⟩

/-- The index without references over the modules in the given files. -/
def ofFiles (filenames : List Text) : Except RecordError Index :=
  match filenames with
  | [] => .ok (fresh none)
  | _ => (filenames.mapM moduleName).map fun names => fresh (some names)

/-- The modules of the project, none if there is no project. -/
def moduleList (x : Index) : List Text :=
  x.modules.getD []

/-- Whether `m` is a module of the project. -/
def isModule (x : Index) (m : Text) : Bool :=
  x.moduleList.contains m

/-- How often a reference to `source` counts inside the project: once if `source` is a module,
and once more if `source` followed by `__init__` is one. -/
def hits (x : Index) (source : Text) : Nat :=
  (if x.isModule source then 1 else 0) +
    (if x.isModule (source ++ ['_', '_', 'i', 'n', 'i', 't', '_', '_']) then 1 else 0)

/-- The number of recorded references. -/
def referenceCount (x : Index) : Nat :=
  x.all.size

/-- The number of references recorded inside the project. -/
def inProjectCount (x : Index) : Nat :=
  x.inProject.size

/-- Gives `target` its lists, empty unless they are there already. -/
def addTarget (x : Index) (target : Text) : Index :=
  { x with
    all := x.all.extend target []
    inProject := if x.isModule target then x.inProject.extend target [] else x.inProject }

/-- Records a reference, which is taken to be well formed. -/
def record (x : Index) (r : Reference) : Index :=
  { x with
    all := x.all.extend r.target [r.entry]
    inProject :=
      if x.isModule r.target then
        x.inProject.extend r.target (List.replicate (x.hits r.source) r.entry)
      else x.inProject }

end Index

end ImportXref

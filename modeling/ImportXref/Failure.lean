import ImportXref.Event
import ImportXref.Path
import ImportXref.RecordError

/-!
# Failures — why a scan or a report came to nothing

A failure is its cause together with the contexts it passed through, the outermost first.
-/

namespace ImportXref

/-- Why a file or a directory could not be used. -/
inductive IoError where
  | notFound
  | alreadyExists
  | notADirectory
  | isADirectory
  | nameTooLong
  | tooManyLinks
  /-- A path with a NUL. -/
  | nulInPath
  /-- A file that is not UTF-8 where text is needed. -/
  | notUtf8
  deriving DecidableEq, Repr

namespace IoError

/-- The wording of an error, with the number of the system's error where it has one. -/
def message : IoError → String
  | notFound => "No such file or directory (os error 2)"
  | alreadyExists => "File exists (os error 17)"
  | notADirectory => "Not a directory (os error 20)"
  | isADirectory => "Is a directory (os error 21)"
  | nameTooLong => "File name too long (os error 36)"
  | tooManyLinks => "Too many levels of symbolic links (os error 40)"
  | nulInPath => "file name contained an unexpected NUL byte"
  | notUtf8 => "stream did not contain valid UTF-8"

end IoError

/-- The cause of a failure. -/
inductive Cause where
  /-- A refused name or reference. -/
  | record (e : RecordError)
  /-- A declared source that does not exist. -/
  | missingSource (path : Path)
  /-- A file or a directory that could not be used. -/
  | io (e : IoError)
  /-- A configuration file that is not understood. -/
  | config
  /-- A batch configuration without projects. -/
  | noProjects (config : Path)
  /-- A project root that is not a directory. -/
  | rootNotADirectory (root : Path)
  deriving DecidableEq, Repr

namespace Cause

/-- The wording of a cause.  What is wrong inside a configuration file is not worded. -/
def message : Cause → Text
  | record e => e.message
  | missingSource path => "module source not found: ".toList ++ path.display
  | io e => e.message.toList
  | config => []
  | noProjects path => "no [[projects]] in ".toList ++ path.display
  | rootNotADirectory root => "project root is not a directory: ".toList ++ root.display

end Cause

/-- A cause and the contexts it passed through. -/
structure Failure where
  /-- What was being done, the outermost first. -/
  contexts : List Text
  /-- Why it failed. -/
  cause : Cause
  deriving DecidableEq, Repr

namespace Failure

/-- A failure without context. -/
def ofCause (cause : Cause) : Failure :=
  ⟨[], cause⟩

/-- The failure as seen from outside `context`. -/
def within (context : Text) (f : Failure) : Failure :=
  { f with contexts := context :: f.contexts }

/-- The wordings of the contexts and of the cause, the outermost first. -/
def messages (f : Failure) : List Text :=
  f.contexts ++ (if f.cause = .config then [] else [f.cause.message])

end Failure

/-- A result with the events on the way to it. -/
structure Traced (α : Type) where
  /-- What was reported. -/
  events : List Event
  /-- The value, or why there is none. -/
  result : Except Failure α

namespace Traced

/-- A value without events. -/
def ok {α : Type} (a : α) : Traced α :=
  ⟨[], .ok a⟩

/-- A failure without events. -/
def fail {α : Type} (cause : Cause) : Traced α :=
  ⟨[], .error (.ofCause cause)⟩

/-- Goes on with `next` unless there is no value. -/
def andThen {α β : Type} (x : Traced α) (next : α → Traced β) : Traced β :=
  match x.result with
  | .error f => ⟨x.events, .error f⟩
  | .ok a => ⟨x.events ++ (next a).events, (next a).result⟩

/-- Reports events first. -/
def after {α : Type} (events : List Event) (x : Traced α) : Traced α :=
  ⟨events ++ x.events, x.result⟩

/-- Puts a failure into a context. -/
def within {α : Type} (context : Text) (x : Traced α) : Traced α :=
  ⟨x.events, x.result.mapError (Failure.within context)⟩

/-- The outcome of an operation on files, in a context. -/
def ofIo {α : Type} (context : Text) (r : Except IoError α) : Traced α :=
  ⟨[], r.mapError fun e => ⟨[context], .io e⟩⟩

@[simp] theorem result_after {α : Type} (events : List Event) (x : Traced α) :
    (x.after events).result = x.result := rfl

/-- Events aside, operations one after the other are a bind. -/
theorem result_andThen {α β : Type} (x : Traced α) (next : α → Traced β) :
    (x.andThen next).result = x.result.bind fun a => (next a).result := by
  obtain ⟨events, result⟩ := x
  cases result <;> rfl

/-- Operations one after the other succeed exactly if both do. -/
theorem result_andThen_eq_ok_iff {α β : Type} {x : Traced α} {next : α → Traced β} {b : β} :
    (x.andThen next).result = .ok b ↔ ∃ a, x.result = .ok a ∧ (next a).result = .ok b := by
  rw [result_andThen]
  cases x.result with
  | error f => simp [Except.bind]
  | ok a => simp [Except.bind]

/-- Operations one after the other fail with the first failure. -/
theorem result_andThen_eq_error_iff {α β : Type} {x : Traced α} {next : α → Traced β}
    {f : Failure} : (x.andThen next).result = .error f ↔
      x.result = .error f ∨ ∃ a, x.result = .ok a ∧ (next a).result = .error f := by
  rw [result_andThen]
  cases x.result with
  | error f => simp [Except.bind]
  | ok a => simp [Except.bind]

theorem result_within_eq_ok_iff {α : Type} {context : Text} {x : Traced α} {a : α} :
    (x.within context).result = .ok a ↔ x.result = .ok a := by
  obtain ⟨events, result⟩ := x
  cases result with
  | error f => exact ⟨nofun, nofun⟩
  | ok b => exact Iff.rfl

/-- A failure in a context is one without it, put into the context. -/
theorem result_within_eq_error_iff {α : Type} {context : Text} {x : Traced α} {f : Failure} :
    (x.within context).result = .error f ↔ ∃ g, x.result = .error g ∧ f = g.within context := by
  obtain ⟨events, result⟩ := x
  cases result with
  | error g =>
      refine ⟨fun h => ⟨g, rfl, (Except.error.inj h).symm⟩, ?_⟩
      rintro ⟨g', hg, rfl⟩
      rw [Except.error.inj hg]
      rfl
  | ok a => exact ⟨nofun, nofun⟩

theorem result_ofIo_eq_error_iff {α : Type} {context : Text} {r : Except IoError α}
    {f : Failure} :
    (ofIo context r).result = .error f ↔ ∃ e, r = .error e ∧ f = ⟨[context], .io e⟩ := by
  cases r with
  | error e =>
      refine ⟨fun h => ⟨e, rfl, (Except.error.inj h).symm⟩, ?_⟩
      rintro ⟨e', he, rfl⟩
      rw [Except.error.inj he]
      rfl
  | ok a => exact ⟨nofun, nofun⟩

end Traced

end ImportXref

import ImportXref.CommandLine.Directive

/-!
# Log filters — which events are shown

A filter is a list of directives, written with commas between them.  Of the directives that fit an
event the one that outranks the others decides, and of equals the last.  An event that none fits
is not shown.
-/

namespace ImportXref

/-- Directives in the order they were given. -/
abbrev LogFilter := List Directive

namespace LogFilter

/-- The filter that a text spells, or why its first directive that cannot be read cannot. -/
def ofText (t : Text) : Except DirectiveError LogFilter :=
  ((t.splitOn ',').filter (· != [])).mapM Directive.ofText

/-- The filter for a number of requests for more. -/
def ofVerbosity (verbose : Nat) : LogFilter :=
  [⟨some "py_xref".toList, false, none, min (verbose + 2) 5⟩]

/-- The filter of a run: the one that is spelled out, if it is one.  There is none if a directive
is cut inside a character. -/
def choose? (spelled : Option Text) (verbose : Nat) : Option LogFilter :=
  match spelled.map ofText with
  | some (.ok f) => some f
  | some (.error .cutCharacter) => none
  | some (.error .malformed) | none => some (ofVerbosity verbose)

/-- The directive that decides about an event. -/
def deciding? (f : LogFilter) (e : Event) : Option Directive :=
  (f.filter (·.fits e)).foldl (fun best d =>
    match best with
    | some b => if b.outranks d then some b else some d
    | none => some d) none

/-- Whether an event is shown. -/
def shows (f : LogFilter) (e : Event) : Bool :=
  match f.deciding? e with
  | some d => e.level.number ≤ d.level
  | none => false

end LogFilter

end ImportXref

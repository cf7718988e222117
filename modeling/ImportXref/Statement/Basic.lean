import ImportXref.Statement.Clause

/-!
# Statements — what a line of source text imports

`from S import O` is a selective import, `import C` a direct one; blanks and tabs may stand in
front.  Only the line up to its first line feed is read, and all other lines are no import.
-/

namespace ImportXref

/-- What a line imports. -/
inductive Statement where
  /-- The modules `sources`. -/
  | direct (sources : List Text)
  /-- The names listed in `objects` from the module `source`, both as written. -/
  | selective (source objects : Text)
  /-- Nothing. -/
  | other
  deriving DecidableEq, Repr

namespace Statement

/-- The word that opens a selective import. -/
def fromWord : Text := ['f', 'r', 'o', 'm', ' ']

/-- The word that opens a direct import. -/
def importWord : Text := ['i', 'm', 'p', 'o', 'r', 't', ' ']

/-- The line up to its first line feed, without the spaces and tabs in front. -/
def body (line : Text) : Text :=
  (line.before '\n').dropWhile fun c => c == ' ' || c == '\t'

/-- The source and the objects of a selective import.  The source is the shortest text of at
least one character that is followed by the word `import` between spaces. -/
def selective? (line : Text) : Option (Text × Text) :=
  match Text.dropStart? fromWord (body line) with
  | some (c :: rest) =>
    (Text.breakOn? (' ' :: importWord) rest).map fun (u, objects) => (Text.trim (c :: u), objects)
  | _ => none

/-- The clause of a direct import. -/
def direct? (line : Text) : Option Text :=
  match Text.dropStart? importWord (body line) with
  | some [] => none
  | clause => clause

/-- What the line imports. -/
def ofLine (line : Text) : Statement :=
  match selective? line with
  | some (source, objects) => selective source objects
  | none =>
    match direct? line with
    | some clause => direct (Clause.names clause)
    | none => other

end Statement

end ImportXref

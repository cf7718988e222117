import ImportXref.Event
import ImportXref.Statement.Basic
import ImportXref.Text.Lines

/-!
# Import lines — the lines of a source text that can hold an import

A line is kept if the word `import` and a space stand in it before its first `#`.  It is cut at
that `#` and then at its first `;`, and a cut at `;` is reported.
-/

namespace ImportXref.Statement

/-- The line without its comment. -/
def uncommented (line : Text) : Text :=
  line.before '#'

/-- Whether the line can hold an import. -/
def bearsImport (line : Text) : Bool :=
  Text.mentions importWord (uncommented line)

/-- The first statement of a line, without its comment. -/
def first (line : Text) : Text :=
  (uncommented line).before ';'

/-- What is reported about a line that is kept. -/
def lineEvents (line : Text) : List Event :=
  if (uncommented line).contains ';' then [.severalStatements line] else []

/-- The lines of a text that are kept, as written. -/
def bearingLines (text : Text) : List Text :=
  text.lines.filter bearsImport

/-- The import lines of a text: the first statements of the lines that are kept. -/
def importLines (text : Text) : List Text :=
  (bearingLines text).map first

/-- What is reported about the import lines of a text. -/
def importEvents (text : Text) : List Event :=
  (bearingLines text).flatMap lineEvents

end ImportXref.Statement

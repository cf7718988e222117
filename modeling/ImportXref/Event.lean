import ImportXref.Text.Basic

/-!
# Events — what the library reports while it works

An event is a fact about the work that no result depends on.  Its level, its origin, its wording
and its named values are functions of it.
-/

namespace ImportXref

/-- How important an event is, the most important last. -/
inductive Level where
  | trace
  | debug
  | info
  | warn
  | error
  deriving DecidableEq, Repr

/-- The value of a field of an event. -/
inductive FieldValue where
  | text (t : Text)
  | number (n : Nat)
  | texts (ts : List Text)
  deriving DecidableEq, Repr

/-- Something that happened. -/
inductive Event where
  /-- A module is given its lists of references. -/
  | addingTarget (target : Text)
  /-- A reference is about to be checked and recorded. -/
  | addingEntry (target source : Text) (symbol : Option Text)
  /-- A line is about to be classified. -/
  | parsing (line filename : Text)
  /-- A file is about to be read. -/
  | analysing (filename : Text)
  /-- A file holds no import line. -/
  | noImports (filename : Text)
  /-- An import line holds more than one statement. -/
  | severalStatements (line : Text)
  /-- A reference is put into the column `col` of the table. -/
  | placing (entry target : Text) (col : Nat)
  /-- A reference is left out of the table. -/
  | noHeader (entry column : Text)
  /-- A module has no list of references. -/
  | emptyRow (target : Text)
  /-- The search for source files begins. -/
  | collecting (root : Text)
  /-- A walk through a directory begins. -/
  | walkStarted
  /-- A directory entry cannot be followed. -/
  | skippingEntry
  /-- A source file is left out by a pattern. -/
  | excluded (path : Text)
  /-- A source file is found for the first time. -/
  | moduleSource (path : Text)
  /-- A pattern cannot be read. -/
  | invalidPattern (pattern : Text)
  /-- A configuration file cannot be read. -/
  | configUnreadable (path : Text)
  /-- A configuration file cannot be understood. -/
  | configMalformed (path : Text)
  /-- A scan has ended. -/
  | scanComplete (files references internal : Nat)
  /-- The source files of a project are known. -/
  | moduleFiles (project : Text) (files : List Text)
  /-- The JSON report has been written. -/
  | wroteJson (path : Text)
  /-- The HTML report has been written. -/
  | wroteHtml (path : Text)
  deriving DecidableEq, Repr

namespace Event

/-- The level of an event. -/
def level : Event → Level
  | addingTarget .. | addingEntry .. | walkStarted => .trace
  | parsing .. | placing .. | excluded .. | moduleSource .. | moduleFiles .. => .debug
  | analysing .. | noImports .. | collecting .. | scanComplete .. | wroteJson .. | wroteHtml .. =>
    .info
  | severalStatements .. | emptyRow .. | skippingEntry | invalidPattern .. | configUnreadable ..
  | configMalformed .. => .warn
  | noHeader .. => .error

/-- The part of the program that reports an event, as filters of the log name it. -/
def origin : Event → String
  | addingTarget .. | addingEntry .. | parsing .. | analysing .. | noImports .. => "py_xref::xref"
  | severalStatements .. => "py_xref::parser::lines"
  | placing .. | noHeader .. | emptyRow .. => "py_xref::xref::table"
  | collecting .. | skippingEntry | excluded .. | moduleSource .. | invalidPattern .. =>
    "py_xref::walker"
  | walkStarted => "ignore::walk"
  | configUnreadable .. | configMalformed .. => "py_xref::config"
  | scanComplete .. => "py_xref::scan"
  | moduleFiles .. => "py_xref"
  | wroteJson .. | wroteHtml .. => "py_xref::export"

/-- The wording of an event. -/
def message : Event → String
  | addingTarget .. => "adding target"
  | addingEntry .. => "adding entry"
  | parsing .. => "parsing"
  | analysing .. => "analysing"
  | noImports .. => "no imports"
  | severalStatements .. => "multiple statements on import line"
  | placing .. => "placing"
  | noHeader .. => "no header matches reference source"
  | emptyRow .. => "empty row"
  | collecting .. => "collecting source files"
  | walkStarted => "automatically discovered CWD"
  | skippingEntry => "skipping entry"
  | excluded .. => "excluded by config"
  | moduleSource .. => "module source"
  | invalidPattern .. => "invalid exclude pattern"
  | configUnreadable .. => "failed to read config, using defaults"
  | configMalformed .. => "failed to parse config, using defaults"
  | scanComplete .. => "scan complete"
  | moduleFiles .. => "module files"
  | wroteJson .. => "wrote JSON report"
  | wroteHtml .. => "wrote HTML report"

/-- The names of the values of an event. -/
def fieldNames : Event → List String
  | addingTarget .. => ["target_module"]
  | addingEntry _ _ none => ["target_module", "source"]
  | addingEntry _ _ (some _) => ["target_module", "source", "symbol"]
  | parsing .. => ["line", "filename"]
  | analysing .. | noImports .. => ["filename"]
  | severalStatements .. => ["line"]
  | placing .. => ["entry", "target_module", "col"]
  | noHeader .. => ["entry", "column"]
  | emptyRow .. => ["target_module"]
  | collecting .. => ["root"]
  | walkStarted | skippingEntry => []
  | excluded .. | moduleSource .. | configUnreadable .. | configMalformed .. | wroteJson ..
  | wroteHtml .. => ["path"]
  | invalidPattern .. => ["pattern"]
  | scanComplete .. => ["files", "references", "scoped"]
  | moduleFiles .. => ["project", "files"]

/-- The values of an event, in the order of their names. -/
def fieldValues : Event → List FieldValue
  | addingTarget t | analysing t | noImports t | severalStatements t | emptyRow t | collecting t
  | excluded t | moduleSource t | invalidPattern t | configUnreadable t | configMalformed t
  | wroteJson t | wroteHtml t => [.text t]
  | addingEntry t s none => [.text t, .text s]
  | addingEntry t s (some x) => [.text t, .text s, .text x]
  | parsing l f => [.text l, .text f]
  | placing e t c => [.text e, .text t, .number c]
  | noHeader e c => [.text e, .text c]
  | walkStarted | skippingEntry => []
  | scanComplete f r s => [.number f, .number r, .number s]
  | moduleFiles p fs => [.text p, .texts fs]

/-- The named values of an event. -/
def fields (e : Event) : List (String × FieldValue) :=
  e.fieldNames.zip e.fieldValues

/-- The names that a filter of the log can ask for.  The wording has one, and so have values that
an event may lack or does not keep. -/
def filterNames : Event → List String
  | addingEntry .. => ["message", "target_module", "source", "symbol"]
  | walkStarted => ["message", "log.target", "log.module_path", "log.file", "log.line"]
  | skippingEntry => ["message", "err"]
  | configUnreadable .. | configMalformed .. => ["message", "path", "err"]
  | e => "message" :: e.fieldNames

end Event

end ImportXref

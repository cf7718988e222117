import ImportXref.Index.Basic
import ImportXref.Proofs.Relative
import ImportXref.Statement.Basic

/-!
# Statements — how an import is written

A written import is a statement behind an indentation and before an optional comment.  Its words
hold neither blanks nor punctuation; around words, commas, parentheses and aliases stand gaps of
spaces and tabs.  Only the space after `from` and those around `import` have a fixed place.

`Line.text` is the text of a written import and `Line.references` what it means in a module.  The
meaning is given component by component and knows no layout.
-/

namespace ImportXref.Written

/-! ### Words and gaps -/

/-- A character that is neither blank nor punctuation. -/
def isWordChar (c : Char) : Bool :=
  !isBlank c && !(['.', ',', '(', ')', '\\', '/', '#', ';'].contains c)

/-- A word. -/
structure Word where
  text : Text
  ne_nil : text ≠ [] := by decide
  chars : text.all isWordChar = true := by decide

/-- Spaces and tabs, perhaps none. -/
structure Gap where
  text : Text
  chars : (text.all fun c => c == ' ' || c == '\t') = true := by decide

/-- Words joined by dots. -/
structure DottedName where
  first : Word
  rest : List Word

/-- A dotted name as it is written. -/
def DottedName.text (d : DottedName) : Text :=
  dottedName ((d.first :: d.rest).map Word.text)

/-! ### Lists of names -/

/-- The word `as` and another word, each behind a gap that is not empty. -/
structure Alias where
  before : Gap
  before_ne_nil : before.text ≠ [] := by decide
  after : Gap
  after_ne_nil : after.text ≠ [] := by decide
  word : Word

/-- An alias as it is written. -/
def Alias.text (a : Alias) : Text :=
  a.before.text ++ 'a' :: 's' :: (a.after.text ++ a.word.text)

/-- A name between two gaps, perhaps with an alias. -/
structure Item (ν : Type) where
  before : Gap
  name : ν
  alias? : Option Alias
  after : Gap

/-- Names between commas. -/
structure Listing (ν : Type) where
  first : Item ν
  rest : List (Item ν)

section

variable {ν : Type} (write : ν → Text)

/-- The name and the alias of an item. -/
def Item.core (i : Item ν) : Text :=
  write i.name ++ (i.alias?.map Alias.text).getD []

/-- An item as it is written, its gaps included. -/
def Item.text (i : Item ν) : Text :=
  i.before.text ++ i.core write ++ i.after.text

/-- A list as it is written, with a comma between two items. -/
def Listing.text (l : Listing ν) : Text :=
  l.first.text write ++ l.rest.flatMap fun i => ',' :: i.text write

/-- The names in a list, in order. -/
def Listing.names (l : Listing ν) : List ν :=
  (l.first :: l.rest).map Item.name

end

/-- The gaps outside a pair of parentheses. -/
structure Parentheses where
  before : Gap
  after : Gap

/-- What stands before the first item of a list. -/
def opening : Option Parentheses → Text
  | none => []
  | some p => p.before.text ++ ['(']

/-- What stands after a list. -/
def closing : Option Parentheses → Text
  | none => []
  | some p => ')' :: p.after.text

/-- A list of words, perhaps with a comma at its end, perhaps in parentheses. -/
structure Objects where
  words : Listing Word
  /-- The gap after a comma at the end. -/
  comma? : Option Gap
  parentheses? : Option Parentheses

/-- The objects of an import as they are written. -/
def Objects.text (o : Objects) : Text :=
  opening o.parentheses? ++ o.words.text Word.text ++
    (match o.comma? with
      | none => []
      | some g => ',' :: g.text) ++ closing o.parentheses?

/-! ### Statements and lines -/

/-- Leading dots and words joined by dots; either may be missing. -/
structure Source where
  dots : Nat
  path : List Word
  dots_or_path : dots ≠ 0 ∨ path ≠ [] := by decide
  /-- The word `import` alone is no source. -/
  ne_import : List.replicate dots '.' ++ dottedName (path.map Word.text) ≠
    ['i', 'm', 'p', 'o', 'r', 't'] := by decide

/-- The part of a source after its dots. -/
def Source.pathText (s : Source) : Text :=
  dottedName (s.path.map Word.text)

/-- A source as it is written, its dots first. -/
def Source.text (s : Source) : Text :=
  List.replicate s.dots '.' ++ s.pathText

/-- An import statement: of modules, or of objects from a source between two gaps. -/
inductive Import where
  | direct (modules : Listing DottedName)
  | selective (before : Gap) (source : Source) (after : Gap) (objects : Objects)

/-- An import statement as it is written. -/
def Import.text : Import → Text
  | direct modules => Statement.importWord ++ modules.text DottedName.text
  | selective before source after objects =>
    Statement.fromWord ++ (before.text ++ source.text ++ after.text ++
      (' ' :: Statement.importWord) ++ objects.text)

/-- What follows a `#` on a line. -/
structure Comment where
  text : Text
  lf_notMem : '\n' ∉ text := by decide

/-- A line that holds an import statement. -/
structure Line where
  indent : Gap
  statement : Import
  comment? : Option Comment

/-- A line as it is written, without its line feed. -/
def Line.text (l : Line) : Text :=
  l.indent.text ++ l.statement.text ++
    match l.comment? with
      | none => []
      | some c => '#' :: c.text

/-! ### What a line means -/

/-- The absolute name of a source in a module: the words themselves if there are no dots, else
the words below the components of the module that the dots leave. -/
def Source.resolved (s : Source) (module : Text) : Except RecordError Text :=
  if s.dots = 0 then .ok s.pathText
  else if s.dots < (components module).length then
    .ok (dottedName ((components module).take ((components module).length - s.dots) ++
      s.path.map Word.text))
  else .error (.depthExceeded s.text module s.dots)

/-- The references that a statement makes in a module. -/
def Import.references (module : Text) : Import → Except RecordError (List Reference)
  | direct modules => .ok (modules.names.map fun d => ⟨module, d.text, none⟩)
  | selective _ source _ objects =>
    (source.resolved module).map fun package =>
      objects.words.names.map fun w => ⟨module, package, some w.text⟩

/-- The references that a line makes in a module. -/
def Line.references (l : Line) (module : Text) : Except RecordError (List Reference) :=
  l.statement.references module

end ImportXref.Written

import ImportXref.Index.Basic

/-!
# JSON — values and their indented text

Two spaces for each level, one element to a line, `[]` and an empty pair of braces for what is
empty.  In a string a quote, a backslash and the characters below U+0020 are escaped, and no
other.
-/

namespace ImportXref

/-- The JSON values that reports are made of. -/
inductive Json where
  | text (t : Text)
  | number (n : Nat)
  | list (values : List Json)
  | object (fields : List (Text × Json))

namespace Json

/-- A number below 16 as a hexadecimal digit. -/
def hexDigit (n : Nat) : Char :=
  if n < 10 then Char.ofNat (48 + n) else Char.ofNat (87 + n)

/-- One character of a string. -/
def escapedChar (c : Char) : Text :=
  match c with
  | '"' => ['\\', '"']
  | '\\' => ['\\', '\\']
  | '\x08' => ['\\', 'b']
  | '\x0c' => ['\\', 'f']
  | '\n' => ['\\', 'n']
  | '\r' => ['\\', 'r']
  | '\t' => ['\\', 't']
  | c =>
    if c.toNat < 0x20 then
      ['\\', 'u', '0', '0', hexDigit (c.toNat / 16), hexDigit (c.toNat % 16)]
    else [c]

/-- A string with its quotes. -/
def string (t : Text) : Text :=
  '"' :: t.flatMap escapedChar ++ ['"']

/-- A new line at the given level. -/
def newline (level : Nat) : Text :=
  '\n' :: List.replicate (2 * level) ' '

/-- A comma unless `rest` is empty. -/
def comma {α : Type} (rest : List α) : Text :=
  if rest.isEmpty then [] else [',']

/-- The end of a list or an object whose elements are on lines of their own. -/
def lastLine {α : Type} (level : Nat) (elements : List α) : Text :=
  if elements.isEmpty then [] else newline level

mutual

/-- The text of a value whose first line stands at the given level. -/
def render (level : Nat) : Json → Text
  | text t => string t
  | number n => Text.ofNat n
  | list values => '[' :: renderValues (level + 1) values ++ lastLine level values ++ [']']
  | object fields =>
    '\x7b' :: renderFields (level + 1) fields ++ lastLine level fields ++ ['\x7d']

/-- The elements of a list, each on a line of its own. -/
def renderValues (level : Nat) : List Json → Text
  | [] => []
  | v :: vs => newline level ++ render level v ++ comma vs ++ renderValues level vs

/-- The fields of an object, each on a line of its own. -/
def renderFields (level : Nat) : List (Text × Json) → Text
  | [] => []
  | (k, v) :: fs =>
    newline level ++ string k ++ [':', ' '] ++ render level v ++ comma fs ++
      renderFields level fs

end

/-- The indented text of a value. -/
def pretty (v : Json) : Text :=
  render 0 v

/-- A list of texts. -/
def ofTexts (ts : List Text) : Json :=
  list (ts.map text)

/-- A reference map: one field for each module, in the order of the keys. -/
def ofRefMap (m : RefMap) : Json :=
  object (m.entries.map fun e => (e.1, ofTexts e.2))

end Json

namespace Index

/-- The map that a report shows. -/
def reported (x : Index) (unscoped : Bool) : RefMap :=
  if unscoped then x.all else x.inProject

/-- The JSON report. -/
def json (x : Index) (unscoped : Bool) : Text :=
  (Json.ofRefMap (x.reported unscoped)).pretty

end Index

end ImportXref

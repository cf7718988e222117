import ImportXref.Toml.Scalar

/-!
# TOML documents — from text to fields

A document is read into lines — pairs, headers, headers of arrays — and the lines are then put
together.  Arrays and inline tables are nested fewer than `nestingLimit` deep and keys have fewer
parts than that.
-/

namespace ImportXref.Toml

/-- Values are nested, and keys dotted, less deeply than this. -/
def nestingLimit : Nat := 80

/-- A character of a key without quotes. -/
def isBareKeyChar (c : Char) : Bool :=
  c.isAlphanum || c = '_' || c = '-'

/-- One part of a key. -/
def keyPart : Text → Option (Text × Text)
  | '"' :: t => quotedRest t
  | '\'' :: t => literalRest t
  | t =>
    match t.takeWhile isBareKeyChar with
    | [] => none
    | word => some (word, t.dropWhile isBareKeyChar)

/-- A key of at most `count` parts with gaps around each of them. -/
def keyParts : Nat → Text → Option (List Text × Text)
  | 0, _ => none
  | count + 1, t => do
    let (part, rest) ← keyPart (skipGap t)
    match skipGap rest with
    | '.' :: rest => (keyParts count rest).map fun (parts, rest) => (part :: parts, rest)
    | rest => some ([part], rest)

/-- A key: the path of its dotted part, its last part, and the rest. -/
def key (t : Text) : Option ((List Text × Text) × Text) := do
  let (parts, rest) ← keyParts (nestingLimit - 1) t
  let last ← parts.getLast?
  some ((parts.dropLast, last), rest)

/-- The text after a comment. -/
def afterComment (t : Text) : Text :=
  t.dropWhile isPlain

/-- Whether the reader is inside a comment. -/
def skipBlank : Bool → Text → Text
  | _, [] => []
  | true, c :: t =>
    if c = '\n' then skipBlank false t else if isPlain c then skipBlank true t else c :: t
  | false, c :: t =>
    if c = '\n' || isGap c then skipBlank false t
    else if c = '#' then skipBlank true t
    else c :: t

/-- The text after gaps, line feeds and comments. -/
def skipLines (t : Text) : Text :=
  skipBlank false t

mutual

/-- A value.  `steps` bounds the number of elements before it and around it, `depth` the
nesting. -/
def value : Nat → Nat → Text → Option (Item × Text)
  | 0, _, _ => none
  | steps + 1, depth, t =>
    match t with
    | '[' :: t =>
      match depth with
      | 0 => none
      | depth + 1 => (elements steps depth (skipLines t)).map fun (xs, rest) => (.list xs, rest)
    | '\x7b' :: t =>
      match depth with
      | 0 => none
      | depth + 1 =>
        match skipGap t with
        | '\x7d' :: rest => some (.table .inlined [], rest)
        | t => (pairs steps depth [] t).map fun (fields, rest) => (.table .inlined fields, rest)
    | t => (scalar t).map fun (s, rest) => (.scalar s, rest)

/-- The elements of an array up to its closing bracket.  A comma may follow the last one. -/
def elements : Nat → Nat → Text → Option (List Item × Text)
  | 0, _, _ => none
  | steps + 1, depth, t =>
    match t with
    | ']' :: rest => some ([], rest)
    | t =>
      match value steps depth t with
      | none => none
      | some (x, rest) =>
        match skipLines rest with
        | ',' :: rest =>
          (elements steps depth (skipLines rest)).map fun (xs, rest) => (x :: xs, rest)
        | ']' :: rest => some ([x], rest)
        | _ => none

/-- The pairs of an inline table up to its closing brace, added to `fields`. -/
def pairs : Nat → Nat → Fields → Text → Option (Fields × Text)
  | 0, _, _, _ => none
  | steps + 1, depth, fields, t =>
    match key t with
    | some ((path, name), '=' :: rest) =>
      match value steps depth (skipGap rest) with
      | none => none
      | some (x, rest) =>
        match fields.insertDotted path name x, skipGap rest with
        | some fields, ',' :: rest => pairs steps depth fields rest
        | some fields, '\x7d' :: rest => some (fields, rest)
        | _, _ => none
    | _ => none

end

/-- A line of a document. -/
inductive Line where
  /-- A key and its value. -/
  | pair (path : List Text) (name : Text) (item : Item)
  /-- The header of a table. -/
  | header (path : List Text) (name : Text)
  /-- The header of an element of an array of tables. -/
  | element (path : List Text) (name : Text)

/-- The rest of a document after the end of a line, which may hold a comment. -/
def endOfLine (t : Text) : Option Text :=
  match skipGap t with
  | [] => some []
  | '\n' :: rest => some rest
  | '#' :: t =>
    match afterComment t with
    | [] => some []
    | '\n' :: rest => some rest
    | _ => none
  | _ => none

/-- A header or a pair, up to the end of its line. -/
def line (t : Text) : Option (Line × Text) :=
  match t with
  | '[' :: '[' :: t =>
    match key t with
    | some ((path, name), ']' :: ']' :: rest) =>
      (endOfLine rest).map fun rest => (.element path name, rest)
    | _ => none
  | '[' :: t =>
    match key t with
    | some ((path, name), ']' :: rest) =>
      (endOfLine rest).map fun rest => (.header path name, rest)
    | _ => none
  | t =>
    match key t with
    | some ((path, name), '=' :: rest) => do
      let (x, rest) ← value (2 * t.length + 2) (nestingLimit - 1) (skipGap rest)
      (endOfLine rest).map fun rest => (.pair path name x, rest)
    | _ => none

/-- The lines of a document, at most `count` of them. -/
def linesOf : Nat → Text → Option (List Line)
  | count, t =>
    match skipGap t with
    | [] => some []
    | t =>
      match count with
      | 0 => none
      | count + 1 =>
        match endOfLine t with
        | some rest => linesOf count rest
        | none => do
          let (l, rest) ← line t
          (linesOf count rest).map (l :: ·)

/-! ### Putting the lines together -/

/-- The table that pairs are added to. -/
inductive Section where
  /-- The document itself. -/
  | root
  /-- A table with a header. -/
  | table (path : List Text) (name : Text)
  /-- A new element of an array of tables. -/
  | element (path : List Text) (name : Text)

/-- A document that is put together. -/
structure Builder where
  /-- All sections that are complete. -/
  done : Fields
  /-- The section that is being read. -/
  current : Section
  /-- Its fields. -/
  fields : Fields

namespace Builder

/-- Adds the section that was being read to those that are complete. -/
def close (b : Builder) : Option Fields :=
  match b.current with
  | .root => some b.fields
  | .table path name =>
    Fields.changeAt (fun parent => some (parent.add name (.table .header b.fields))) path b.done
  | .element path name =>
    Fields.changeAt (fun parent =>
      match parent.lookup name with
      | none => some (parent.add name (.tables [b.fields]))
      | some (.tables elements) => some (parent.replace name (.tables (elements ++ [b.fields])))
      | some _ => none) path b.done

/-- Opens a table with a header.  One that is implied so far keeps its fields. -/
def openTable (done : Fields) (path : List Text) (name : Text) : Option Builder := do
  let done ← Fields.changeAt some path done
  let parent ← Fields.at? path done
  match parent.lookup name with
  | none => some ⟨done, .table path name, []⟩
  | some (.table .implied inner) =>
    let done ← Fields.changeAt (fun parent => some (parent.remove name)) path done
    some ⟨done, .table path name, inner⟩
  | some _ => none

/-- Opens a new element of an array of tables. -/
def openElement (done : Fields) (path : List Text) (name : Text) : Option Builder := do
  let done ← Fields.changeAt some path done
  let parent ← Fields.at? path done
  match parent.lookup name with
  | none | some (.tables _) => some ⟨done, .element path name, []⟩
  | some _ => none

/-- Takes in a line. -/
def addLine (b : Builder) : Line → Option Builder
  | .pair path name x => do
    let fields ← b.fields.insertDotted path name x
    some { b with fields := fields }
  | .header path name => do openTable (← b.close) path name
  | .element path name => do openElement (← b.close) path name

end Builder

/-- Line ends with a single line feed. -/
def normalLines : Text → Text
  | '\r' :: '\n' :: t => '\n' :: normalLines t
  | c :: t => c :: normalLines t
  | [] => []

/-- The text without a byte order mark in front. -/
def withoutMark : Text → Text
  | '\uFEFF' :: t => t
  | t => t

/-- The fields of a document. -/
def ofText? (t : Text) : Option Fields := do
  let t := normalLines (withoutMark t)
  let lines ← linesOf (t.length + 1) t
  let b ← lines.foldlM Builder.addLine ⟨[], .root, []⟩
  b.close

end ImportXref.Toml

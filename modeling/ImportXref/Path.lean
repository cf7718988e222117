import ImportXref.Text.Utf8

/-!
# Paths — byte strings with slashes

A path is kept as it was written.  `components` reads it: repeated slashes and inner `.` parts do
not count.  `join`, `parent?` and `fileName?` follow from that reading, but `join` and `parent?`
give back text of the paths they are applied to, not a normal form.
-/

namespace ImportXref

/-- A path as written. -/
structure Path where
  /-- The bytes of the path. -/
  bytes : Bytes
  deriving DecidableEq, Repr

/-- A component of a path. -/
inductive Component where
  /-- The slash in front of an absolute path. -/
  | root
  /-- A dot in front of a relative path. -/
  | here
  /-- Two dots. -/
  | up
  /-- A name. -/
  | name (n : Bytes)
  deriving DecidableEq, Repr

namespace Component

/-- The bytes of a component. -/
def bytes : Component → Bytes
  | root => [47]
  | here => [46]
  | up => [46, 46]
  | name n => n

/-- The component that a part between slashes stands for, none for the empty part and the dot. -/
def ofPart? : Bytes → Option Component
  | [] => none
  | [46] => none
  | [46, 46] => some up
  | n => some (name n)

end Component

namespace Path

/-- The path that a text spells. -/
def ofText (t : Text) : Path :=
  ⟨t.utf8⟩

/-- The text of a path, U+FFFD for what is not UTF-8. -/
def display (p : Path) : Text :=
  p.bytes.text

/-- Whether the path begins with a slash. -/
def isAbsolute (p : Path) : Bool :=
  p.bytes.head? == some 47

/-- What lies between the slashes of a path. -/
def parts (p : Path) : List Bytes :=
  p.bytes.splitOn 47

/-- The components of a path. -/
def components (p : Path) : List Component :=
  let named := p.parts.filterMap Component.ofPart?
  if p.isAbsolute then .root :: named
  else if p.parts.head? == some [46] then .here :: named
  else named

/-- The path `q` as seen from `p`. -/
def join (p q : Path) : Path :=
  if q.isAbsolute then q
  else if p.bytes.getLast?.all (· == 47) then ⟨p.bytes ++ q.bytes⟩
  else ⟨p.bytes ++ 47 :: q.bytes⟩

/-- Whether a part between slashes is no component, unless it comes first. -/
def isEmptyPart (part : Bytes) : Bool :=
  (Component.ofPart? part).isNone

/-- The parts without those at the end that are no components. -/
def trimParts (parts : List Bytes) : List Bytes :=
  (parts.reverse.dropWhile isEmptyPart).reverse

/-- The path up to its last component, as it was written; none for the root and the empty
path. -/
def parent? (p : Path) : Option Path :=
  match p.parts with
  | [] => none
  | first :: rest =>
    match trimParts rest with
    | [] => if first = [] then none else some ⟨[]⟩
    | kept =>
      match first, trimParts kept.dropLast with
      | [], [] => some ⟨[47]⟩
      | _, above => some ⟨[47].intercalate (first :: above)⟩

/-- The last component, if it is a name. -/
def fileName? (p : Path) : Option Bytes :=
  match p.components.getLast? with
  | some (.name n) => some n
  | _ => none

/-- The part of a name after its last dot, unless that dot is its first character. -/
def nameExtension? (n : Bytes) : Option Bytes :=
  let tail := n.reverse.takeWhile (· != 46)
  if tail.length + 1 < n.length then some tail.reverse else none

/-- The extension of the last component. -/
def extension? (p : Path) : Option Bytes :=
  p.fileName?.bind nameExtension?

/-- The components of `p` below `root`, or all of them if `p` is not below `root`. -/
def below (root p : Path) : List Component :=
  if root.components.isPrefixOf p.components then p.components.drop root.components.length
  else p.components

end Path

end ImportXref

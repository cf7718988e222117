import ImportXref.Glob
import ImportXref.Tree.Walk

/-!
# Discovery — the source files of a project

Each declared name is a file or a directory under the project root.  Files with the extension of
sources are kept, in the order of the names and of the walk through each directory, unless a
pattern matches their path or one of its components.  A file reached twice keeps its first place.

What a pattern tests a text for is a parameter first (`excludedBy`, `collectBy`); `excluded` and
`collect` read patterns as globs.
-/

namespace ImportXref.Discovery

/-- The extension of source files. -/
def sourceExtension : Bytes := [112, 121]

/-- Components as a text with slashes between them. -/
def spelled (components : List Component) : Text :=
  ['/'].intercalate (components.map fun c => c.bytes.text)

/-- Whether the whole of `components` or one of them passes the test of a pattern. -/
def hits (admits : Text → Bool) (components : List Component) : Bool :=
  admits (spelled components) ||
    components.any fun c => match c.bytes.text? with
      | some t => admits t
      | none => false

/-- Where a declared name stands. -/
def place (root : Path) (name : Text) : Path :=
  root.join (.ofText name)

/-- Whether a path is a single dash, which names the standard input instead of a directory. -/
def isStandardInput (p : Path) : Bool :=
  p.components == [.name [45]]

/-- The visits that a declared name leads to; none if it does not exist. -/
def visits? (v : View) (root : Path) (name : Text) : Option (List Visit) :=
  let path := place root name
  match v.status path with
  | .error _ => none
  | .ok (loc, .directory) =>
    some (.start :: if isStandardInput path then [] else v.walk Tree.maxPath [] path loc)
  | .ok _ => some [.file path]

section

/- The test of a pattern; none if the pattern cannot be read. -/
variable (test? : Text → Option (Text → Bool))

/-- Whether one of the patterns matches, and the reports about patterns that cannot be read
before it. -/
def excludedBy (patterns : List Text) (components : List Component) : List Event × Bool :=
  match patterns with
  | [] => ([], false)
  | p :: rest =>
    match test? p with
    | none =>
      let (events, answer) := excludedBy rest components
      (.invalidPattern p :: events, answer)
    | some admits => if hits admits components then ([], true) else excludedBy rest components

/-- The files found after a visit, given those found before it. -/
def consider (root : Path) (patterns : List Text) (found : List Text) :
    Visit → List Event × List Text
  | .start => ([.walkStarted], found)
  | .skipped => ([.skippingEntry], found)
  | .file path =>
    if path.extension? = some sourceExtension then
      let components := Path.below root path
      let name := spelled components
      let (events, out) := excludedBy test? patterns components
      if out then (events ++ [.excluded name], found)
      else if found.contains name then (events, found)
      else (events ++ [.moduleSource name], found ++ [name])
    else ([], found)

/-- The files found after several visits. -/
def considerAll (root : Path) (patterns : List Text) (found : List Text) :
    List Visit → List Event × List Text
  | [] => ([], found)
  | visit :: rest =>
    let (events, found) := consider test? root patterns found visit
    let (later, found) := considerAll root patterns found rest
    (events ++ later, found)

/-- The files found after going through several names. -/
def collectNames (v : View) (root : Path) (patterns : List Text) (found : List Text) :
    List Text → Traced (List Text)
  | [] => .ok found
  | name :: rest =>
    match visits? v root name with
    | none => .fail (.missingSource (place root name))
    | some visits =>
      let (events, found) := considerAll test? root patterns found visits
      (collectNames v root patterns found rest).after events

/-- The source files that the names lead to, relative to `root`, without the excluded ones. -/
def collectBy (v : View) (root : Path) (patterns names : List Text) : Traced (List Text) :=
  (collectNames test? v root patterns [] names).after [.collecting root.display]

end

/-- Whether one of the globs matches, and the reports about those that cannot be read before
it. -/
def excluded (patterns : List Text) (components : List Component) : List Event × Bool :=
  excludedBy Glob.test? patterns components

/-- The source files that the names lead to, relative to `root`, without those that globs
exclude. -/
def collect (v : View) (root : Path) (patterns names : List Text) : Traced (List Text) :=
  collectBy Glob.test? v root patterns names

end ImportXref.Discovery

import ImportXref.Tree.Basic

/-!
# Walking — every file below a directory

A walk goes depth first through the entries of a directory in the order of their names and follows
links.  A file is visited without a look at its path, which may be too long for the system; a link
that leads nowhere and a directory that cannot be opened are skipped, and so is a link to a
directory that the walk is inside of.
-/

namespace ImportXref

/-- What a walk comes by. -/
inductive Visit where
  /-- The directory where the walk begins. -/
  | start
  /-- A file. -/
  | file (path : Path)
  /-- An entry that cannot be followed. -/
  | skipped
  deriving DecidableEq, Repr

namespace View

/-- Walks through the directory at `loc`, reached by the path `path` through the directories
`above`, at most `depth` levels deep. -/
def walk (v : View) : Nat → List Location → Path → Location → List Visit
  | 0, _, _, _ => []
  | depth + 1, above, path, loc =>
    (v.tree.names loc).flatMap fun name =>
      let child := path.join ⟨name⟩
      match v.tree.find? (loc ++ [name]) with
      | none => []
      | some (.file _) => [.file child]
      | some .directory =>
        match v.directory? child with
        | some target => v.walk depth (loc :: above) child target
        | none => [.skipped]
      | some (.link _) =>
        match v.status child with
        | .ok (target, .directory) =>
          if (loc :: above).contains target then [.skipped]
          else v.walk depth (loc :: above) child target
        | .ok (_, .file _) => [.file child]
        | _ => [.skipped]

end View

end ImportXref

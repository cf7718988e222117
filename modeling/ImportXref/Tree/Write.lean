import ImportXref.Tree.Basic

/-!
# Writing — new directories and files

`makeDirectories` makes a directory and those above it that are missing; a directory that is
there already is no failure.  `write` replaces a file or makes it, through links.
-/

namespace ImportXref.View

/-- The view with an entry put into its tree. -/
def put (v : View) (loc : Location) (e : Entry) : View :=
  { v with tree := v.tree.insert loc e }

/-- Where a new directory would stand; an entry that is there already, a link included, is in
the way. -/
def newDirectory (v : View) (p : Path) : Except IoError Location :=
  match check p with
  | .error e => .error e
  | .ok () =>
    let parts := p.parts.filter (· != [])
    match parts.getLast? with
    | none => .error .alreadyExists
    | some last =>
      match v.tree.followLinks false Tree.maxLinks (v.start p) parts.dropLast with
      | .error e => .error e
      | .ok (.missing _) => .error .notFound
      | .ok (.entry dir .directory) =>
        if last = [46] || last = [46, 46] then .error .alreadyExists
        else if last.length > Tree.maxName then .error .nameTooLong
        else if (v.tree.find? (dir ++ [last])).isSome then .error .alreadyExists
        else .ok (dir ++ [last])
      | .ok (.entry _ _) => .error .notADirectory

/-- Makes a directory. -/
def makeDirectory (v : View) (p : Path) : Except IoError View :=
  (v.newDirectory p).map fun loc => v.put loc .directory

/-- Makes a directory unless it is there already. -/
def ensureDirectory (v : View) (p : Path) : Except IoError View :=
  match v.makeDirectory p with
  | .ok v' => .ok v'
  | .error e => if v.isDirectory p then .ok v else .error e

/-- The paths above a path, the nearest first, as far as `depth` of them. -/
def ancestors : Nat → Path → List Path
  | 0, _ => []
  | depth + 1, p =>
    match p.parent? with
    | none => []
    | some q => if q.bytes = [] then [] else q :: ancestors depth q

/-- Makes the directories of a list whose first members lie inside the later ones.  Those above
are made only if the first one cannot be made without them. -/
def makeInside (v : View) : List Path → View × Except IoError Unit
  | [] => (v, .ok ())
  | p :: above =>
    match v.makeDirectory p with
    | .ok v' => (v', .ok ())
    | .error .notFound =>
      match above with
      | [] => (v, .error .notFound)
      | _ =>
        match makeInside v above with
        | (v', .error e) => (v', .error e)
        | (v', .ok ()) =>
          match v'.ensureDirectory p with
          | .ok v'' => (v'', .ok ())
          | .error e => (v', .error e)
    | .error e => (v, if v.isDirectory p then .ok () else .error e)

/-- Makes a directory and those above it.  The empty path needs none. -/
def makeDirectories (v : View) (p : Path) : View × Except IoError Unit :=
  if p.bytes = [] then (v, .ok ())
  else v.makeInside (p :: ancestors p.parts.length p)

/-- Where a file would be written. -/
def writable (v : View) (p : Path) : Except IoError Location :=
  match v.resolve true p with
  | .error e => .error e
  | .ok (.missing loc) => .ok loc
  | .ok (.entry loc (.file _)) => .ok loc
  | .ok (.entry _ .directory) => .error .isADirectory
  | .ok (.entry _ (.link _)) => .error .tooManyLinks

/-- Writes a file. -/
def write (v : View) (p : Path) (contents : Bytes) : Except IoError View :=
  (v.writable p).map fun loc => v.put loc (.file contents)

end ImportXref.View

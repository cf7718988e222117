import ImportXref.Failure

/-!
# File trees — directories, files and symbolic links as a value

A tree maps locations to entries.  A location is the list of names from the root, which is always
a directory.  `View.resolve` follows a path component by component, as the system does: at most
`maxLinks` links are followed, a name has at most `maxName` bytes and a path fewer than `maxPath`.
-/

namespace ImportXref

/-- Where an entry stands: the names from the root. -/
abbrev Location := List Bytes

/-- What stands at a location. -/
inductive Entry where
  | file (contents : Bytes)
  | directory
  | link (target : Path)
  deriving DecidableEq, Repr

/-- A tree of files.  The first entry for a location counts. -/
structure Tree where
  /-- The locations and their entries. -/
  entries : List (Location × Entry)
  deriving Repr

/-- A path as the system sees it from a working directory. -/
structure View where
  /-- The tree. -/
  tree : Tree
  /-- The location that relative paths start from. -/
  workingDirectory : Location

namespace Tree

/-- How many links are followed on the way to an entry. -/
def maxLinks : Nat := 40

/-- How many bytes a name may have. -/
def maxName : Nat := 255

/-- A path has fewer bytes than this. -/
def maxPath : Nat := 4096

/-- The entry at a location. -/
def find? (t : Tree) : Location → Option Entry
  | [] => some .directory
  | loc => t.entries.lookup loc

/-- Puts an entry at a location. -/
def insert (t : Tree) (loc : Location) (e : Entry) : Tree :=
  ⟨(loc, e) :: t.entries.filter (·.1 != loc)⟩

theorem find?_insert (t : Tree) {loc : Location} (h : loc ≠ []) (e : Entry) (l : Location) :
    (t.insert loc e).find? l = if l = loc then some e else t.find? l := by
  cases l with
  | nil => simp [find?, h.symm]
  | cons n l =>
    by_cases hl : n :: l = loc
    · simp [find?, insert, hl]
    · have hb : (n :: l == loc) = false := beq_eq_false_iff_ne.mpr hl
      simp only [find?, insert, List.lookup_cons, hb, hl, if_false]
      induction t.entries with
      | nil => rfl
      | cons a entries ih =>
        obtain ⟨k, x⟩ := a
        by_cases hk : k = loc
        · simp [hk, List.lookup_cons, hb, ih]
        · by_cases hn : n :: l = k
          · simp [hk, hn]
          · have hc : (n :: l == k) = false := beq_eq_false_iff_ne.mpr hn
            simp [hk, List.lookup_cons, hc, ih]

/-- The order of names by their bytes. -/
def nameLe : Bytes → Bytes → Bool
  | [], _ => true
  | _ :: _, [] => false
  | x :: s, y :: t => x < y || (x == y && nameLe s t)

/-- The names in the directory at a location, ordered by their bytes. -/
def names (t : Tree) (loc : Location) : List Bytes :=
  let here := t.entries.filterMap fun (l, _) =>
    match l.getLast? with
    | some n => if l.dropLast = loc then some n else none
    | none => none
  here.eraseDups.mergeSort nameLe

/-- What a path leads to. -/
inductive Target where
  /-- An entry that exists. -/
  | entry (loc : Location) (e : Entry)
  /-- No entry, but the directory that would hold it. -/
  | missing (loc : Location)
  deriving DecidableEq, Repr

/-- The part that stands for a slash at the end of a path. -/
def slash : Bytes := [47]

/-- The parts of a path that matter on the way: the non-empty ones, and a slash at the end. -/
def steps (p : Path) : List Bytes :=
  let named := p.parts.filter (· != [])
  if named != [] && p.bytes.getLast? == some 47 then named ++ [slash] else named

/-- Follows `parts` from the directory `dir`.  A link is followed by `onLink`, which is given the
directory and the parts to go on with.  Where a file is to be made, a name with a slash after it
is refused before anything is looked up. -/
def follow (t : Tree) (creating : Bool) (onLink : Location → List Bytes → Except IoError Target) :
    Location → List Bytes → Except IoError Target
  | dir, [] => .ok (.entry dir .directory)
  | dir, part :: rest =>
    if part = [46] || part = slash then follow t creating onLink dir rest
    else if part = [46, 46] then follow t creating onLink dir.dropLast rest
    else if creating && rest = [slash] then .error .isADirectory
    else if part.length > maxName then .error .nameTooLong
    else
      let loc := dir ++ [part]
      match t.find? loc with
      | none => if rest = [] then .ok (.missing loc) else .error .notFound
      | some (.file contents) =>
        if rest = [] then .ok (.entry loc (.file contents)) else .error .notADirectory
      | some .directory => follow t creating onLink loc rest
      | some (.link target) =>
        if target.bytes = [] then .error .notFound
        else onLink (if target.isAbsolute then [] else dir) (steps target ++ rest)

/-- Follows `parts` from a directory over at most `links` links. -/
def followLinks (t : Tree) (creating : Bool) :
    Nat → Location → List Bytes → Except IoError Target
  | 0 => follow t creating fun _ _ => .error .tooManyLinks
  | links + 1 => follow t creating (followLinks t creating links)

end Tree

namespace View

/-- Refuses a path that the system does not look at. -/
def check (p : Path) : Except IoError Unit :=
  if p.bytes.contains 0 then .error .nulInPath
  else if p.bytes = [] then .error .notFound
  else if p.bytes.length ≥ Tree.maxPath then .error .nameTooLong
  else .ok ()

/-- Where a path starts. -/
def start (v : View) (p : Path) : Location :=
  if p.isAbsolute then [] else v.workingDirectory

/-- What a path leads to, links followed; `creating` where a file is to be made. -/
def resolve (v : View) (creating : Bool) (p : Path) : Except IoError Tree.Target :=
  match check p with
  | .error e => .error e
  | .ok () => v.tree.followLinks creating Tree.maxLinks (v.start p) (Tree.steps p)

/-- The location and the entry of a path, links followed. -/
def status (v : View) (p : Path) : Except IoError (Location × Entry) :=
  match v.resolve false p with
  | .error e => .error e
  | .ok (.missing _) => .error .notFound
  | .ok (.entry loc e) => .ok (loc, e)

/-- Whether the path leads to an entry. -/
def pathExists (v : View) (p : Path) : Bool :=
  match v.status p with
  | .ok _ => true
  | .error _ => false

/-- The location of the directory that the path leads to. -/
def directory? (v : View) (p : Path) : Option Location :=
  match v.status p with
  | .ok (loc, .directory) => some loc
  | _ => none

/-- Whether the path leads to a directory. -/
def isDirectory (v : View) (p : Path) : Bool :=
  (v.directory? p).isSome

/-- The bytes of the file that the path leads to. -/
def read (v : View) (p : Path) : Except IoError Bytes :=
  match v.status p with
  | .error e => .error e
  | .ok (_, .file contents) => .ok contents
  | .ok (_, .directory) => .error .isADirectory
  | .ok (_, .link _) => .error .tooManyLinks

/-- The text of the file that the path leads to. -/
def readText (v : View) (p : Path) : Except IoError Text :=
  match v.read p with
  | .error e => .error e
  | .ok bytes =>
    match bytes.text? with
    | some t => .ok t
    | none => .error .notUtf8

/-- The absolute path of a location. -/
def pathOf (loc : Location) : Path :=
  ⟨47 :: [47].intercalate loc⟩

/-- The absolute path without links that a path leads to. -/
def canonical (v : View) (p : Path) : Except IoError Path :=
  match v.status p with
  | .error e => .error e
  | .ok (loc, _) => .ok (pathOf loc)

end View

end ImportXref

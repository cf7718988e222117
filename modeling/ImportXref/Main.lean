import ImportXref.CommandLine.Run

/-!
# The program

The part of the file system that a command looks at is loaded into a tree, the command is carried
out on the tree, and what is new in it is carried over.  Only here is anything read or written.
-/

namespace ImportXref.Program

/-! ### Locations and the names of the system -/

/-- The location that an absolute path without links spells. -/
def locationOf (path : String) : Location :=
  (Path.ofText path.toList).parts.filter (· != [])

/-- The name of a location in the system. -/
def nameOf (loc : Location) : String :=
  String.ofList (View.pathOf loc).display

/-- What stands at a location of the system; of a file the contents only if they are wanted.  A
link leads to the place without links that it stands for, a broken one nowhere. -/
def entryAt (contents : Bool) (loc : Location) : IO (Option Entry) := do
  let path := System.mkFilePath [nameOf loc]
  let kind ← try pure (some (← path.symlinkMetadata).type) catch _ => pure none
  match kind with
  | none => return none
  | some .dir => return some .directory
  | some .symlink =>
    if ← path.pathExists then
      return some (.link (.ofText (← IO.FS.realPath path).toString.toList))
    else return some (.link ⟨[]⟩)
  | some _ =>
    if contents then return some (.file (← IO.FS.readBinFile path).toList)
    else return some (.file [])

/-! ### Loading -/

/-- A tree with an entry of the system and the directories above it. -/
def add (t : Tree) (loc : Location) (e : Entry) : Tree :=
  let above := (List.range loc.length).map loc.take
  let t := above.foldl (fun t l => if (t.find? l).isSome then t else t.insert l .directory) t
  t.insert loc e

/-- What has been loaded. -/
structure Snapshot where
  /-- The entries. -/
  tree : Tree
  /-- The directories that have been loaded with everything in them. -/
  complete : List Location

/-- Follows the parts of a path from the directory `dir` and loads what lies on the way; the
location that the path leads to is given. -/
partial def loadAlong (t : Tree) (dir : Location) (parts : List Bytes) : IO (Tree × Location) := do
  match parts with
  | [] => return (t, dir)
  | part :: rest =>
    if part = [46] || part = Tree.slash then loadAlong t dir rest
    else if part = [46, 46] then loadAlong t dir.dropLast rest
    else
      let loc := dir ++ [part]
      match ← entryAt true loc with
      | none => return (t, loc)
      | some (.link target) =>
        let t := add t loc (.link target)
        if target.bytes = [] then return (t, loc)
        let (t, there) ← loadAlong t [] (Tree.steps target)
        loadAlong t there rest
      | some e => loadAlong (add t loc e) loc rest

/-- Loads a location and everything below it, through links; source files with their contents. -/
partial def loadBelow (s : Snapshot) (loc : Location) : IO Snapshot := do
  let isSource := (loc.getLast?.bind Path.nameExtension?) == some Discovery.sourceExtension
  match ← entryAt isSource loc with
  | none => return s
  | some .directory =>
    let s := { s with tree := add s.tree loc .directory }
    let found ← (System.mkFilePath [nameOf loc]).readDir
    found.foldlM (fun s e => loadBelow s (loc ++ [Text.utf8 e.fileName.toList])) s
  | some (.link target) =>
    let s := { s with tree := add s.tree loc (.link target) }
    if target.bytes = [] then return s
    let (t, there) ← loadAlong s.tree [] (Tree.steps target)
    if s.complete.any (·.isPrefixOf there) then return { s with tree := t }
    else loadBelow ⟨t, there :: s.complete⟩ there
  | some e =>
    if (s.tree.find? loc).isSome then return s else return { s with tree := add s.tree loc e }

/-- Loads what a path leads to, and everything below it. -/
def loadAll (here : Location) (s : Snapshot) (p : Path) : IO Snapshot := do
  let (t, loc) ← loadAlong s.tree (if p.isAbsolute then [] else here) (Tree.steps p)
  if s.complete.any (·.isPrefixOf loc) then return { s with tree := t }
  else loadBelow ⟨t, loc :: s.complete⟩ loc

/-- Loads what lies on the way along a path. -/
def loadPath (here : Location) (s : Snapshot) (p : Path) : IO Snapshot := do
  let (t, _) ← loadAlong s.tree (if p.isAbsolute then [] else here) (Tree.steps p)
  return { s with tree := t }

/-- Loads the directory for reports and what is directly in it. -/
def loadReports (here : Location) (s : Snapshot) (p : Path) : IO Snapshot := do
  let (t, loc) ← loadAlong s.tree (if p.isAbsolute then [] else here) (Tree.steps p)
  let path := System.mkFilePath [nameOf loc]
  if ← path.isDir then
    let names := (← path.readDir).map fun e => Text.utf8 e.fileName.toList
    let t ← names.foldlM (fun t n => do
      match ← entryAt false (loc ++ [n]) with
      | some e => return if (t.find? (loc ++ [n])).isSome then t else add t (loc ++ [n]) e
      | none => return t) t
    return { s with tree := t }
  else return { s with tree := t }

/-- Loads the root and the sources of a project. -/
def loadProject (here : Location) (s : Snapshot) (root : Path) (sources : List Text) :
    IO Snapshot := do
  let s ← loadAll here s root
  sources.foldlM (fun s name => loadAll here s (Discovery.place root name)) s

/-- Loads what a command looks at. -/
def loadFor (here : Location) (c : Command) : IO View := do
  let s : Snapshot := ⟨⟨[]⟩, []⟩
  match c with
  | .scan c =>
    let s ← loadProject here s c.root c.sources
    let s ← loadPath here s (c.root.join (.ofText Config.fileName))
    let config := (Config.load ⟨s.tree, here⟩ c.root).2
    return ⟨(← loadReports here s (c.job config).reportsDir).tree, here⟩
  | .batch path _ =>
    let s ← loadPath here s path
    match Config.ofFile ⟨s.tree, here⟩ path with
    | .error _ => return ⟨s.tree, here⟩
    | .ok config =>
      let s ← config.projects.foldlM (fun s p => loadProject here s p.root p.sources) s
      return ⟨(← loadReports here s (config.reportsDir.getD defaultReportsDir)).tree, here⟩

/-! ### Carrying over -/

/-- Makes the directories and writes the files that are new in a tree. -/
def carryOver (before after : Tree) : IO Unit := do
  let entries := after.entries.mergeSort fun a b => a.1.length ≤ b.1.length
  for (loc, e) in entries do
    if before.find? loc != some e then
      match e with
      | .directory => IO.FS.createDirAll (nameOf loc)
      | .file bytes => IO.FS.writeBinFile (nameOf loc) ⟨bytes.toArray⟩
      | .link _ => pure ()

/-! ### What is shown -/

/-- The name of a level in the log. -/
def levelName : Level → String
  | .trace => "TRACE"
  | .debug => "DEBUG"
  | .info => " INFO"
  | .warn => " WARN"
  | .error => "ERROR"

/-- The value of a field in the log. -/
def fieldText : FieldValue → Text
  | .text t => t
  | .number n => Text.ofNat n
  | .texts ts => ['['] ++ [',', ' '].intercalate (ts.map Text.quoted) ++ [']']

/-- An event as a line of the log. -/
def logLine (e : Event) : String :=
  let field (f : String × FieldValue) : Text := ' ' :: f.1.toList ++ '=' :: fieldText f.2
  String.ofList
    ((levelName e.level).toList ++ ' ' :: e.message.toList ++ (e.fields.map field).flatten)

/-- How the program is used. -/
def usage : String :=
  "Usage: py-xref [-v]... scan [-n NAME] [-o DIR] [--format FORMAT] [--unscoped] [--stdout] " ++
    "[--json] ROOT SOURCES...\n" ++
  "       py-xref [-v]... batch [-c FILE] [--json]"

/-- Carries out the command that the arguments spell; the exit code is given. -/
def run (args : List String) : IO UInt32 := do
  let args := args.map String.toList
  let here := locationOf (← IO.currentDir).toString
  let v ← match CommandLine.ofArguments args with
    | .ok c => loadFor here c.command
    | .error _ => pure ⟨⟨[]⟩, here⟩
  let filter := (← IO.getEnv "RUST_LOG").map String.toList
  let o := runProgram args filter v
  carryOver v.tree o.view.tree
  for e in o.log do IO.eprintln (logLine e)
  IO.eprint (String.ofList o.stderr)
  IO.print (String.ofList o.stdout)
  match CommandLine.ofArguments args with
  | .error .help => IO.println usage
  | .error e => if e.exitCode != 0 then IO.eprintln usage
  | .ok _ => pure ()
  return o.exitCode.toUInt32

end ImportXref.Program

/-- Runs the program. -/
def main (args : List String) : IO UInt32 :=
  ImportXref.Program.run args

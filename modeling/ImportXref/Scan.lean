import ImportXref.Discovery
import ImportXref.Index.Plan

/-!
# Scans — the index of a project

The source files are found, named and read one after the other; the first failure ends the scan.
-/

namespace ImportXref

/-- What a scan leads to. -/
structure Scan where
  /-- The source files in the order they were read. -/
  files : List Text
  /-- The number of import lines. -/
  importLines : Nat
  /-- The index of all files. -/
  index : Index

/-- A run on an index as a traced result. -/
def Index.Run.traced (r : Index.Run) : Traced Index :=
  ⟨r.events, match r.refusal? with
    | some e => .error (.ofCause (.record e))
    | none => .ok r.index⟩

namespace Scan

/-- The text of a source file. -/
def sourceText (v : View) (root : Path) (file : Text) : Traced Text :=
  let path := root.join (.ofText file)
  .ofIo ("failed to read ".toList ++ path.display) ((v.read path).map Bytes.text)

/-- Reads the files into an index, and counts their import lines. -/
def readFiles (v : View) (root : Path) (x : Index) (lines : Nat) :
    List Text → Traced (Nat × Index)
  | [] => .ok (lines, x)
  | file :: rest =>
    (sourceText v root file).andThen fun text =>
      ((x.run (Plan.file file text)).traced.within ("failed to scan ".toList ++ file)).andThen
        fun x => readFiles v root x (lines + (Statement.importLines text).length) rest

/-- The index without references over the source files. -/
def freshIndex (files : List Text) : Traced Index :=
  match Index.ofFiles files with
  | .ok x => .ok x
  | .error e => (Traced.fail (.record e)).within "failed to name project modules".toList

/-- Scans the sources of a project. -/
def run (v : View) (root : Path) (patterns sources : List Text) : Traced Scan :=
  (Discovery.collect v root patterns sources).andThen fun files =>
    (freshIndex files).andThen fun x =>
      (readFiles v root x 0 files).andThen fun (lines, x) =>
        (Traced.ok ⟨files, lines, x⟩).after
          [.scanComplete files.length x.referenceCount x.inProjectCount]

end Scan

end ImportXref

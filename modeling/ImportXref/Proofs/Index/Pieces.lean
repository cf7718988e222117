import ImportXref.Proofs.Statement.LineEnds

/-!
# Index — a file in two pieces

A text is cut into lines before anything else is done with it, so a file may be read piece by
piece: first one text into the index and then, unless that was refused, the text behind the line
feed into the index that the first one left.

* `readFile`: reading a file into an index, with the number of its import lines as the result.
* `readFile_of_refused`, `readFile_of_accepted`: it is a run of the import lines.
* `readFile_append_lf`: reading a file in two pieces is reading it whole.
-/

namespace ImportXref

/-- The import lines of two texts with a line feed between them, one after the other. -/
theorem Plan.importLines_append_lf {a : Text} (ha : a.getLast? ≠ some '\r') (filename b : Text) :
    Plan.importLines filename (a ++ '\n' :: b) =
      Plan.importLines filename a ++ Plan.importLines filename b := by
  rw [Plan.importLines, Statement.importLines_append_lf ha, List.flatMap_append]
  rfl

/-! ### Steps on a state -/

section

variable {ε σ α β : Type} {m : ExceptT ε (StateM σ) α} {s s' : σ}

/-- A step that is refused is the last one, and its state is kept. -/
theorem bind_of_error {e : ε} (h : m s = (.error e, s')) (next : α → ExceptT ε (StateM σ) β) :
    (m >>= next) s = (.error e, s') := by
  change ExceptT.bindCont next (m s).1 (m s).2 = _
  rw [h]
  rfl

/-- A step with a result is followed by the next one, on the state that it left. -/
theorem bind_of_ok {a : α} (h : m s = (.ok a, s')) (next : α → ExceptT ε (StateM σ) β) :
    (m >>= next) s = next a s' := by
  change ExceptT.bindCont next (m s).1 (m s).2 = _
  rw [h]
  rfl

end

namespace Index

/-- Reads the text of a file into the index.  The result is the number of its import lines, or why
one of them is refused; what was recorded before stays recorded. -/
def readFile (filename text : Text) : ExceptT RecordError (StateM Index) Nat := fun x =>
  let r := x.run (Plan.file filename text)
  (match r.refusal? with
    | some e => .error e
    | none => .ok (Statement.importLines text).length, r.index)

variable {filename text : Text}

theorem refusal?_run_file (x : Index) : (x.run (Plan.file filename text)).refusal? =
    Plan.refusal? (Plan.importLines filename text) := by
  rw [refusal?_run, Plan.refusal?_file, Plan.importLines, Plan.refusal?_flatMap]

/-- Reading a file of which an import line is refused. -/
theorem readFile_of_refused {e : RecordError}
    (h : Plan.refusal? (Plan.importLines filename text) = some e) (x : Index) :
    readFile filename text x = (.error e, (x.run (Plan.importLines filename text)).index) := by
  rw [readFile, x.refusal?_run_file, h, x.index_run_file]

/-- Reading a file of which no import line is refused. -/
theorem readFile_of_accepted (h : Plan.refusal? (Plan.importLines filename text) = none)
    (x : Index) : readFile filename text x =
      (.ok (Statement.importLines text).length,
        (x.run (Plan.importLines filename text)).index) := by
  rw [readFile, x.refusal?_run_file, h, x.index_run_file]

/-- **A file in two pieces.**  Reading two texts with a line feed between them is reading the first
one and then, unless it is refused, the second one: the index is left the same, the cause of a
refusal is the same, and without one the numbers of their import lines add up.  The first text may
not end in a carriage return, which would belong to the line end. -/
theorem readFile_append_lf {a : Text} (ha : a.getLast? ≠ some '\r') (filename b : Text) :
    readFile filename (a ++ '\n' :: b) = do
      let n ← readFile filename a
      let m ← readFile filename b
      return n + m := by
  funext x
  have hplan := Plan.importLines_append_lf ha filename b
  have hrefusal : Plan.refusal? (Plan.importLines filename (a ++ '\n' :: b)) =
      (Plan.refusal? (Plan.importLines filename a)).or
        (Plan.refusal? (Plan.importLines filename b)) := by
    rw [hplan, Plan.refusal?_append]
  cases hfirst : Plan.refusal? (Plan.importLines filename a) with
  | some e =>
      rw [hfirst, Option.some_or] at hrefusal
      rw [readFile_of_refused hrefusal, bind_of_error (readFile_of_refused hfirst x), hplan,
        run_append, Run.andThen, refusal?_run, hfirst]
  | none =>
      rw [hfirst, Option.none_or] at hrefusal
      rw [bind_of_ok (readFile_of_accepted hfirst x)]
      cases hsecond : Plan.refusal? (Plan.importLines filename b) with
      | some e =>
          rw [hsecond] at hrefusal
          rw [readFile_of_refused hrefusal, bind_of_error (readFile_of_refused hsecond _), hplan,
            index_run_append x hfirst]
      | none =>
          rw [hsecond] at hrefusal
          rw [readFile_of_accepted hrefusal, bind_of_ok (readFile_of_accepted hsecond _), hplan,
            index_run_append x hfirst, Statement.importLines_append_lf ha, List.length_append]
          rfl

/-- Of two pieces, the first one has two import lines and is read; of the second one, the second
line is refused. -/
theorem twoPieces_read :
    let first := "from .b import c\r\nimport d # e".toList
    let second := "import f\nfrom ... import g\nimport h".toList
    first.getLast? ≠ some '\r' ∧
      (readFile "a/m.py".toList first (.fresh none)).1 = .ok 2 ∧
      (readFile "a/m.py".toList (first ++ '\n' :: second) (.fresh none)).1 =
        .error (.depthExceeded "...".toList "a.m".toList 3) ∧
      (readFile "a/m.py".toList (first ++ '\n' :: second) (.fresh none)).2.all.list
        "a.m".toList = ["a.b.c".toList, "d".toList, "f".toList] ∧
      readFile "a/m.py".toList (first ++ '\n' :: second) = do
        let n ← readFile "a/m.py".toList first
        let m ← readFile "a/m.py".toList second
        return n + m := by
  intro first second
  have hlast : first.getLast? ≠ some '\r' := by decide
  exact ⟨hlast, by rfl, by rfl, by decide, readFile_append_lf hlast _ second⟩

end Index

end ImportXref

import ImportXref.Proofs.CommandLine.Jobs

/-!
# Commands — the files after a failed scan

A `scan` command that fails leaves every file as it was, with one exception: where both reports
are wanted, the JSON report is written first, and stays when the page cannot be written.

* `files_of_failed_run`: the files after a failed `scan` command.
* `blockedPage_left_behind`: a JSON report that is left behind.
-/

namespace ImportXref.ScanCommand

variable {c : ScanCommand} {v : View} {f : Failure}

/-- The job of a command under the configuration of its project. -/
def configured (c : ScanCommand) (v : View) : Job :=
  c.job (Config.load v c.root).2

/-- The scan that a command asks for. -/
def scanned (c : ScanCommand) (v : View) : Traced (Path × Text × Scan) :=
  (c.configured v).scan (Config.load v c.root).2.patterns v

/-- **The files after a failed scan.**  No directory, link or file has gone.  Every file is as it
was before, or the project was scanned, both reports were wanted, the page could not be written,
and the only file that may differ is the JSON report that was written in front of it. -/
theorem files_of_failed_run (h : (c.run v).trace.result = .error f) :
    v.tree.Grows (c.run v).view.tree ∧
      ((∀ loc contents, (c.run v).view.tree.find? loc = some (.file contents) ↔
          v.tree.find? loc = some (.file contents)) ∨
        (c.format = .all ∧ c.stdout = false ∧ ∃ root name s place err,
          (c.scanned v).result = .ok (root, name, s) ∧
          f = Export.refusal (((c.configured v).output root name).htmlReport s.index) err ∧
          (c.run v).view.writable
            (((c.configured v).output root name).htmlReport s.index).path = .error err ∧
          (c.run v).view.read (((c.configured v).output root name).jsonReport s.index).path =
            .ok (((c.configured v).output root name).jsonReport s.index).contents.utf8 ∧
          ∀ loc contents, (c.run v).view.tree.find? loc = some (.file contents) ↔
            if loc = place then
              contents = (((c.configured v).output root name).jsonReport s.index).contents.utf8
            else v.tree.find? loc = some (.file contents))) := by
  have hview : (c.run v).view =
      ((c.configured v).run (Config.load v c.root).2.patterns c.json v).view := rfl
  have hfailed : ((c.configured v).run (Config.load v c.root).2.patterns c.json v).trace.result =
      .error f := h
  rw [hview]
  obtain hmade | ⟨hall, hfiles, root, name, s, place, err, hscan, hwrites, hrefused, hf⟩ :=
    Job.writes_of_failed_run hfailed
  · exact ⟨hmade.grows, .inl hmade.files⟩
  · refine ⟨hwrites.grows, .inr ⟨hall, hfiles, root, name, s, place, err, hscan, hf, hrefused,
      ?_, fun loc contents => ?_⟩⟩
    · exact (hwrites.read_eq_iff List.mem_cons_self).mpr
        (View.lastWrite?_of_nodup (by simp) List.mem_cons_self)
    · rw [hwrites.find?_file_iff, View.lastWrite?_cons]
      by_cases hloc : loc = place
      · simp [hloc, View.lastWrite?]
      · simp [hloc, Ne.symm hloc, View.lastWrite?]

/-- A project with one file, and a directory in the place of its page. -/
def blockedPage : View :=
  let bytes (s : String) : Bytes := Text.utf8 s.toList
  ⟨⟨[([bytes "proj"], .directory), ([bytes "proj", bytes "a.py"], .file (bytes "import os\n")),
    ([bytes "out"], .directory), ([bytes "out", bytes "xref_p.html"], .directory)]⟩, []⟩

/-- Scans that project and writes both reports. -/
def blockedScan : ScanCommand :=
  ⟨.ofText "proj".toList, ["a.py".toList], some "p".toList, some (.ofText "out".toList), .all,
    false, false, false⟩

/-- The command fails, and a JSON report that was not there before is left. -/
theorem blockedPage_left_behind : ∃ f, (blockedScan.run blockedPage).trace.result = .error f ∧
    f = ⟨["failed to write out/xref_p.html".toList], .io .isADirectory⟩ ∧
    blockedPage.tree.Grows (blockedScan.run blockedPage).view.tree ∧
    blockedPage.tree.find? [Text.utf8 "out".toList, Text.utf8 "xref_p.json".toList] = none ∧
    (blockedScan.run blockedPage).view.tree.find?
        [Text.utf8 "out".toList, Text.utf8 "xref_p.json".toList] =
      some (.file (Text.utf8 "\x7b\n  \"a\": []\n\x7d".toList)) := by
  have hfailed : (blockedScan.run blockedPage).trace.result =
      .error ⟨["failed to write out/xref_p.html".toList], .io .isADirectory⟩ := rfl
  exact ⟨_, hfailed, rfl, (files_of_failed_run hfailed).1, by decide +kernel, by decide +kernel⟩

end ImportXref.ScanCommand

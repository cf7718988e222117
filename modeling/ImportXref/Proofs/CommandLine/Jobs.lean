import ImportXref.CommandLine.Run
import ImportXref.Proofs.Report.Written

/-!
# Jobs — which files a job writes

A job writes nothing before its project is scanned, and nothing at all if it prints.  Otherwise it
ends as the export of its scan does.

* `writes_of_run`: a job that succeeds has written all of its reports, or it has printed.
* `writes_of_failed_run`: a job that fails has written nothing, or the JSON report in front of a
  page that could not be written.
-/

namespace ImportXref.Job

variable {job : Job} {patterns : List Text} {json : Bool} {v : View} {f : Failure} {root : Path}
  {name : Text} {s : Scan}

/-- How the reports of a job are written. -/
def output (job : Job) (root : Path) (name : Text) : Export :=
  ⟨job.format, name, root, job.reportsDir, job.unscoped⟩

theorem run_of_failed_scan (h : (job.scan patterns v).result = .error f) :
    (job.run patterns json v).view = v ∧ (job.run patterns json v).trace.result = .error f := by
  simp [run, h]

/-- A job that prints does not fail once its project is scanned. -/
theorem run_of_stdout (h : (job.scan patterns v).result = .ok (root, name, s))
    (hstdout : job.stdout = true) : (job.run patterns json v).trace.result = .ok () := by
  simp [run, h, report, hstdout, Traced.ok]

/-- A job that writes ends as the export of its scan does. -/
theorem run_of_files (json : Bool) (h : (job.scan patterns v).result = .ok (root, name, s))
    (hfiles : job.stdout = false) :
    (job.run patterns json v).view = ((job.output root name).run v s.index).1 ∧
      (job.run patterns json v).trace.result =
        ((job.output root name).run v s.index).2.result.map fun _ => () := by
  simp only [run, h, report, hfiles, Bool.false_eq_true, if_false, Traced.result_after]
  rcases hrun : (job.output root name).run v s.index with ⟨w, events, err | paths⟩ <;>
    · rw [output] at hrun
      simp only [hrun]
      exact ⟨trivial, rfl⟩

/-- A job that writes has written its reports when it succeeds. -/
theorem writes_of_run (hfiles : job.stdout = false)
    (h : (job.run patterns json v).trace.result = .ok ()) : ∃ root name s ws,
      (job.scan patterns v).result = .ok (root, name, s) ∧
      Export.AreWritten ws ((job.output root name).reports s.index) ∧
      v.Writes ws (job.run patterns json v).view := by
  cases hscan : (job.scan patterns v).result with
  | error f =>
      rw [(run_of_failed_scan hscan).2] at h
      cases h
  | ok found =>
      obtain ⟨root, name, s⟩ := found
      obtain ⟨hview, hresult⟩ := run_of_files json hscan hfiles
      rw [hresult] at h
      cases hrun : ((job.output root name).run v s.index).2.result with
      | error f => simp [hrun, Except.map] at h
      | ok paths =>
          obtain ⟨ws, hws, hwrites⟩ := Export.writes_of_run hrun
          exact ⟨root, name, s, ws, rfl, hws, hview ▸ hwrites⟩

/-- What a job that failed has written: nothing, or the JSON report in front of the page. -/
theorem writes_of_failed_run (h : (job.run patterns json v).trace.result = .error f) :
    v.Prepares (job.run patterns json v).view ∨
      (job.format = .all ∧ job.stdout = false ∧ ∃ root name s place err,
        (job.scan patterns v).result = .ok (root, name, s) ∧
        v.Writes [⟨((job.output root name).jsonReport s.index).path, place,
          ((job.output root name).jsonReport s.index).contents.utf8⟩]
          (job.run patterns json v).view ∧
        (job.run patterns json v).view.writable
          ((job.output root name).htmlReport s.index).path = .error err ∧
        f = Export.refusal ((job.output root name).htmlReport s.index) err) := by
  cases hscan : (job.scan patterns v).result with
  | error f' =>
      left
      rw [(run_of_failed_scan hscan).1]
      exact .refl v
  | ok found =>
      obtain ⟨root, name, s⟩ := found
      cases hstdout : job.stdout with
      | true =>
          rw [run_of_stdout hscan hstdout] at h
          cases h
      | false =>
          obtain ⟨hview, hresult⟩ := run_of_files json hscan hstdout
          rw [hresult] at h
          cases hrun : ((job.output root name).run v s.index).2.result with
          | ok paths => simp [hrun, Except.map] at h
          | error f' =>
              obtain rfl : f' = f := by simpa [hrun, Except.map] using h
              rw [hview]
              obtain hmade | ⟨hall, place, err, hwrites, hrefused, hf⟩ :=
                Export.writes_of_failed_run hrun
              · exact .inl hmade
              · exact .inr ⟨hall, rfl, root, name, s, place, err, rfl, hwrites, hrefused, hf⟩

end ImportXref.Job

import ImportXref.Proofs.Tree.Writing
import ImportXref.Report.Export

/-!
# Reports — which files an export leaves

The directory for the reports is made first, and then the reports are written one after the other.
An export that fails leaves the reports before the one that could not be written.

* `writes_of_run`: an export that succeeds writes all of its reports.
* `writes_of_failed_run`: one that fails writes none, unless it is the page that could not be
  written behind a JSON report.
-/

namespace ImportXref.Export

open View (Write Writes)

variable {v : View} {e : Export} {x : Index} {f : Failure}

/-- The files `ws` are written for the reports `rs`. -/
def AreWritten (ws : List Write) (rs : List Report) : Prop :=
  List.Forall₂ (fun w r => w.path = r.path ∧ w.contents = r.contents.utf8) ws rs

/-- Why a report could not be written. -/
def refusal (r : Report) (err : IoError) : Failure :=
  ⟨["failed to write ".toList ++ r.path.display], .io err⟩

/-- A report that can be written is written, and then the other ones. -/
theorem writeAll_cons_of_ok {r : Report} {place : Location} (h : v.writable r.path = .ok place)
    (rest : List Report) :
    (writeAll v (r :: rest)).1 =
        (writeAll (v.put place (.file r.contents.utf8)) rest).1 ∧
      (writeAll v (r :: rest)).2.result =
        (writeAll (v.put place (.file r.contents.utf8)) rest).2.result.map (r.path :: ·) := by
  have hwrite : v.write r.path r.contents.utf8 = .ok (v.put place (.file r.contents.utf8)) := by
    simp [View.write, h, Except.map]
  simp only [writeAll, hwrite, Traced.result_after, Traced.result_andThen, true_and]
  cases (writeAll (v.put place (.file r.contents.utf8)) rest).2.result <;> rfl

/-- A report that cannot be written ends the export. -/
theorem writeAll_cons_of_error {r : Report} {rest : List Report} {err : IoError}
    (h : v.writable r.path = .error err) :
    writeAll v (r :: rest) = (v, ⟨[], .error (refusal r err)⟩) := by
  have hwrite : v.write r.path r.contents.utf8 = .error err := by
    simp [View.write, h, Except.map]
  rw [writeAll, hwrite, refusal]

/-- Reports that are written are all written, in order. -/
theorem writes_of_writeAll {rs : List Report} {paths : List Path}
    (h : (writeAll v rs).2.result = .ok paths) :
    ∃ ws, AreWritten ws rs ∧ v.Writes ws (writeAll v rs).1 := by
  induction rs generalizing v paths with
  | nil => exact ⟨[], .nil, .nil (.refl v)⟩
  | cons r rest ih =>
      cases hplace : v.writable r.path with
      | error err =>
          rw [writeAll_cons_of_error hplace] at h
          cases h
      | ok place =>
          obtain ⟨hview, hresult⟩ := writeAll_cons_of_ok hplace rest
          rw [hresult] at h
          cases hrest : (writeAll (v.put place (.file r.contents.utf8)) rest).2.result with
          | error f => simp [hrest, Except.map] at h
          | ok later =>
              obtain ⟨ws, hws, hwrites⟩ := ih hrest
              exact ⟨⟨r.path, place, r.contents.utf8⟩ :: ws, .cons ⟨rfl, rfl⟩ hws,
                hview ▸ .cons (.refl v) hplace hwrites⟩

/-- The reports before the one that could not be written are left. -/
theorem writes_of_failed_writeAll {rs : List Report} (h : (writeAll v rs).2.result = .error f) :
    ∃ done r rest ws err, rs = done ++ r :: rest ∧ AreWritten ws done ∧
      v.Writes ws (writeAll v rs).1 ∧ (writeAll v rs).1.writable r.path = .error err ∧
        f = refusal r err := by
  induction rs generalizing v with
  | nil => cases h
  | cons r rest ih =>
      cases hplace : v.writable r.path with
      | error err =>
          rw [writeAll_cons_of_error hplace] at h ⊢
          exact ⟨[], r, rest, [], err, rfl, .nil, .nil (.refl v), hplace, (Except.error.inj h).symm⟩
      | ok place =>
          obtain ⟨hview, hresult⟩ := writeAll_cons_of_ok hplace rest
          rw [hresult] at h
          cases hrest : (writeAll (v.put place (.file r.contents.utf8)) rest).2.result with
          | ok later => simp [hrest, Except.map] at h
          | error f' =>
              obtain rfl : f' = f := by simpa [hrest, Except.map] using h
              obtain ⟨done, r', rest', ws, err, rfl, hws, hwrites, hrefused, hf⟩ := ih hrest
              exact ⟨r :: done, r', rest', ⟨r.path, place, r.contents.utf8⟩ :: ws, err, rfl,
                .cons ⟨rfl, rfl⟩ hws, hview ▸ .cons (.refl v) hplace hwrites, hview ▸ hrefused, hf⟩

/-! ### Exports -/

/-- **An export that succeeds writes all of its reports.** -/
theorem writes_of_run {paths : List Path} (h : (e.run v x).2.result = .ok paths) :
    ∃ ws, AreWritten ws (e.reports x) ∧ v.Writes ws (e.run v x).1 := by
  have hmade := View.prepares_makeDirectories v e.directory
  unfold run at h ⊢
  rcases hdirs : v.makeDirectories e.directory with ⟨u, err | _⟩ <;> rw [hdirs] at h hmade
  · cases h
  · obtain ⟨ws, hws, hwrites⟩ := writes_of_writeAll h
    exact ⟨ws, hws, hwrites.prepend hmade⟩

theorem reports_of_all (h : e.format = .all) :
    e.reports x = [e.jsonReport x, e.htmlReport x] := by
  simp [reports, h, Format.wantsJson, Format.wantsHtml]

/-- Two reports are the JSON report and the page. -/
theorem of_reports_eq {first r : Report} {done rest : List Report}
    (h : e.reports x = first :: (done ++ r :: rest)) :
    e.format = .all ∧ first = e.jsonReport x ∧ done = [] ∧ r = e.htmlReport x := by
  cases hformat : e.format with
  | json => simp [reports, hformat, Format.wantsJson, Format.wantsHtml] at h
  | html => simp [reports, hformat, Format.wantsJson, Format.wantsHtml] at h
  | all =>
      obtain ⟨rfl, hlast⟩ := List.cons_eq_cons.mp ((reports_of_all hformat).symm.trans h)
      cases done with
      | nil => exact ⟨rfl, rfl, rfl, (List.cons_eq_cons.mp hlast).1.symm⟩
      | cons second done => simp at hlast

/-- An export that fails has written no report, or it could not write the page behind the JSON
report. -/
theorem writes_of_failed_run (h : (e.run v x).2.result = .error f) :
    v.Prepares (e.run v x).1 ∨
      (e.format = .all ∧ ∃ place err,
        v.Writes [⟨(e.jsonReport x).path, place, (e.jsonReport x).contents.utf8⟩]
          (e.run v x).1 ∧
        (e.run v x).1.writable (e.htmlReport x).path = .error err ∧
          f = refusal (e.htmlReport x) err) := by
  have hmade := View.prepares_makeDirectories v e.directory
  unfold run at h ⊢
  rcases hdirs : v.makeDirectories e.directory with ⟨u, err | _⟩ <;> rw [hdirs] at h hmade
  · exact .inl hmade
  obtain ⟨done, r, rest, ws, err, hreports, hws, hwrites, hrefused, hf⟩ :=
    writes_of_failed_writeAll h
  cases done with
  | nil =>
      cases hws
      cases hwrites with | nil hmade' => exact .inl (hmade.trans hmade')
  | cons first done =>
      obtain ⟨hall, rfl, rfl, rfl⟩ := of_reports_eq hreports
      cases hws with
      | @cons w _ ws _ hw hrest =>
          cases hrest
          obtain ⟨path, place, contents⟩ := w
          obtain ⟨rfl, rfl⟩ := hw
          exact .inr ⟨hall, place, err, hwrites.prepend hmade, hrefused, hf⟩

end ImportXref.Export

import ImportXref.Proofs.Index.Files
import ImportXref.Proofs.Text.Edges

/-!
# Statements — lines that are passed over

Only the lines with the word `import` before their comment are read.  No other line could have
been an import: both kinds of statement contain that word, and a line is cut at its comment before
it is classified.  So reading a file is reading all of its lines.

* `Text.mentions_iff`: a keyword is mentioned where it is an infix.
* `Statement.ofLine_eq_other`: a line without the word `import` is no import.
* `Statement.bearsImport_iff`: the lines that are read.
* `Index.readLines`: reading every line.
* `run_file_agrees_readLines`: that is reading the file.
-/

namespace ImportXref

namespace Text

/-- A keyword is mentioned exactly where it stands somewhere in the text. -/
theorem mentions_iff {key t : Text} : mentions key t = true ↔ key <:+: t := by
  constructor
  · intro h
    obtain ⟨⟨u, v⟩, hb⟩ := Option.isSome_iff_exists.mp h
    exact ⟨u, v, (breakOn?_append hb).symm⟩
  · rintro ⟨u, v, rfl⟩
    exact mentions_append key u v

theorem before_isPrefix (c : Char) (t : Text) : before c t <+: t :=
  List.takeWhile_prefix _

theorem notMem_before (c : Char) (t : Text) : c ∉ before c t := by
  intro h
  simpa using List.mem_takeWhile_imp h

end Text

namespace Statement

/-! ### The word `import` in a statement -/

theorem body_isInfix (line : Text) : body line <:+: line :=
  (List.dropWhile_suffix _).isInfix.trans (Text.before_isPrefix '\n' line).isInfix

theorem importWord_isInfix_of_selective? {line source objects : Text}
    (h : selective? line = some (source, objects)) : importWord <:+: line := by
  unfold selective? at h
  split at h
  · next c rest hdrop =>
    obtain ⟨⟨u, o⟩, hbreak, -⟩ := Option.map_eq_some_iff.mp h
    have hbody : body line = fromWord ++ c :: rest := Text.dropStart?_eq_some_iff.mp hdrop
    have hrest : rest = u ++ ' ' :: importWord ++ o := Text.breakOn?_append hbreak
    refine List.IsInfix.trans ⟨fromWord ++ c :: (u ++ [' ']), o, ?_⟩ (body_isInfix line)
    rw [hbody, hrest]
    simp
  · cases h

theorem importWord_isInfix_of_direct? {line clause : Text} (h : direct? line = some clause) :
    importWord <:+: line := by
  have hdrop : ∃ rest, Text.dropStart? importWord (body line) = some rest := by
    unfold direct? at h
    split at h
    · cases h
    · exact ⟨clause, h⟩
  obtain ⟨rest, hrest⟩ := hdrop
  have hbody : body line = importWord ++ rest := Text.dropStart?_eq_some_iff.mp hrest
  exact List.IsInfix.trans ⟨[], rest, hbody.symm⟩ (body_isInfix line)

/-- A line without the word `import` is no import. -/
theorem ofLine_eq_other {line : Text} (h : ¬ importWord <:+: line) : ofLine line = other := by
  unfold ofLine
  cases hs : selective? line with
  | some p => exact absurd (importWord_isInfix_of_selective? hs) h
  | none =>
      simp only
      cases hd : direct? line with
      | some clause => exact absurd (importWord_isInfix_of_direct? hd) h
      | none => rfl

/-! ### The lines that are read -/

/-- A line is read exactly if the word `import` stands in it with no `#` in front of it. -/
theorem bearsImport_iff {line : Text} :
    bearsImport line = true ↔ ∃ u v, line = u ++ importWord ++ v ∧ '#' ∉ u := by
  rw [bearsImport, Text.mentions_iff, uncommented]
  constructor
  · rintro ⟨u, v, hv⟩
    obtain ⟨rest, hrest⟩ := Text.before_isPrefix '#' line
    refine ⟨u, v ++ rest, by rw [← hrest, ← hv]; simp, fun hu => ?_⟩
    have hmem : '#' ∈ u ++ importWord ++ v := by simp [hu]
    rw [hv] at hmem
    exact Text.notMem_before '#' line hmem
  · rintro ⟨u, v, rfl, hu⟩
    refine ⟨u, Text.before '#' v, ?_⟩
    have hchars : ∀ c ∈ u ++ importWord, (c != '#') = true := by
      intro c hc
      rcases List.mem_append.mp hc with hc | hc
      · exact bne_iff_ne.mpr fun he => hu (he ▸ hc)
      · exact List.all_eq_true.mp (by decide : importWord.all (· != '#') = true) c hc
    rw [Text.before, Text.before, List.takeWhile_append_of_pos hchars]

/-- A line that is not read holds no import, read up to its comment and its first `;`. -/
theorem ofLine_first_eq_other {line : Text} (h : bearsImport line = false) :
    ofLine (first line) = other := by
  refine ofLine_eq_other fun hword => ?_
  have hbears : bearsImport line = true :=
    Text.mentions_iff.mpr (hword.trans (Text.before_isPrefix ';' (uncommented line)).isInfix)
  rw [h] at hbears
  cases hbears

end Statement

/-! ### Every line -/

/-- Reads every line of a list, up to its comment and then up to its first `;`, until one is
refused. -/
def Index.readLines (filename : Text) (x : Index) : List Text → Index.Run
  | [] => ⟨x, [], none⟩
  | l :: ls =>
    (x.run (Plan.line filename ((l.before '#').before ';'))).andThen fun y =>
      y.readLines filename ls

variable {filename m : Text}

/-- A line that is not read leaves no trace and is not refused. -/
theorem run_line_of_not_bearsImport (hm : moduleName filename = .ok m) (x : Index) {l : Text}
    (hl : Statement.bearsImport l = false) :
    (x.run (Plan.line filename (Statement.first l))).index = x ∧
      (x.run (Plan.line filename (Statement.first l))).refusal? = none := by
  rw [Plan.line, Plan.lineWith, hm, Statement.ofLine_first_eq_other hl]
  exact ⟨rfl, rfl⟩

/-- The same index and the same refusal, if any; what is reported may differ. -/
structure Index.Run.Agrees (r s : Index.Run) : Prop where
  index : r.index = s.index
  refusal? : r.refusal? = s.refusal?

/-- Reading every line is reading those that bear an import, by induction on the lines. -/
theorem agrees_readLines (hm : moduleName filename = .ok m) (x : Index) (ls : List Text) :
    (x.run (((ls.filter Statement.bearsImport).map Statement.first).flatMap
      (Plan.line filename))).Agrees (x.readLines filename ls) := by
  induction ls generalizing x with
  | nil => exact ⟨rfl, rfl⟩
  | cons l ls ih =>
      have hcons : x.readLines filename (l :: ls) =
          (x.run (Plan.line filename (Statement.first l))).andThen
            fun y => y.readLines filename ls := rfl
      rw [hcons, Index.Run.andThen]
      cases hl : Statement.bearsImport l with
      | true =>
          rw [List.filter_cons_of_pos hl, List.map_cons, List.flatMap_cons, Index.run_append,
            Index.Run.andThen]
          cases hr : (x.run (Plan.line filename (Statement.first l))).refusal? with
          | some e => exact ⟨rfl, rfl⟩
          | none =>
              have hrest := ih (x.run (Plan.line filename (Statement.first l))).index
              exact ⟨hrest.index, hrest.refusal?⟩
      | false =>
          obtain ⟨hindex, hrefusal⟩ := run_line_of_not_bearsImport hm x hl
          rw [List.filter_cons_of_neg (Bool.eq_false_iff.mp hl), hrefusal, hindex]
          exact ⟨(ih x).index, (ih x).refusal?⟩

/-- **Passing over lines is transparent.**  Reading a file, which looks only at the lines with the
word `import` before their comment, leaves the same index and is refused for the same cause, if
at all, as reading every one of its lines up to the first `#` and then up to the first `;`.  For a
line without that word in front of its first `#` is accepted whatever the index, and leaves it as
it is. -/
theorem run_file_agrees_readLines (hm : moduleName filename = .ok m) (x : Index) (text : Text) :
    (x.run (Plan.file filename text)).Agrees (x.readLines filename text.lines) ∧
      ∀ l, (¬ ∃ u v, l = u ++ Statement.importWord ++ v ∧ '#' ∉ u) → ∀ y : Index,
        let run := y.run (Plan.line filename ((l.before '#').before ';'))
        run.index = y ∧ run.refusal? = none := by
  obtain ⟨hindex, hrefusal⟩ := agrees_readLines hm x text.lines
  refine ⟨⟨?_, ?_⟩, fun l hl y => ?_⟩
  · rw [x.index_run_file, ← hindex]
    rfl
  · rw [← hrefusal, Index.refusal?_run, Index.refusal?_run, Plan.refusal?_file,
      Plan.refusal?_flatMap]
    rfl
  · refine run_line_of_not_bearsImport hm y (Bool.eq_false_iff.mpr fun hb => hl ?_)
    exact Statement.bearsImport_iff.mp hb

/-- A file with one reference among imports in comments, with a second statement on one line, and
with imports that leave the top-level package before its last line. -/
def mixedLines : Text :=
  "# import os\nx = 1 # import sys\n\tfrom .b import c; import d\nfrom ... import e\nimport f".toList

/-- Reading it records the reference, and every line up to the first that is refused was read. -/
theorem mixedLines_read :
    let x := Index.fresh none
    let run := x.run (Plan.file "a/m.py".toList mixedLines)
    run.index.all.list "a.m".toList = ["a.b.c".toList] ∧
      run.refusal? = some (.depthExceeded "...".toList "a.m".toList 3) ∧
      run.Agrees (x.readLines "a/m.py".toList mixedLines.lines) := by
  have hm : moduleName "a/m.py".toList = .ok "a.m".toList := by decide
  have hread := (run_file_agrees_readLines hm (.fresh none) mixedLines).1
  exact ⟨by decide, by decide, hread⟩

end ImportXref

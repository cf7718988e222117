import ImportXref.Proofs.Index.Carried
import ImportXref.Proofs.Statement.Reading

/-!
# Statements — what a written import does to an index

Reading a file whose text is one written import records the references that it makes in the
module of the file, in order, and nothing else; or it is refused because the source leaves the
top-level package, and the index stays as it is.

* `resolve_text`: a source resolves to its words below the components that its dots leave.
* `refusal?_of_mem_references`: no reference of a written import is refused.
* `run_file_text`: what reading the file does.
-/

namespace ImportXref

/-! ### Separators -/

theorem mem_dottedName {c : Char} {ws : List Text} (h : c ∈ dottedName ws) :
    c = '.' ∨ ∃ w ∈ ws, c ∈ w := by
  induction ws with
  | nil => cases h
  | cons w ws ih =>
      cases ws with
      | nil => exact .inr ⟨w, List.mem_cons_self .., by simpa [dottedName] using h⟩
      | cons v ws =>
          rw [dottedName_cons_cons] at h
          rcases List.mem_append.mp h with hw | h
          · exact .inr ⟨w, List.mem_cons_self .., hw⟩
          rcases List.mem_cons.mp h with hdot | h
          · exact .inl hdot
          · refine (ih h).imp_right ?_
            rintro ⟨u, hu, hc⟩
            exact ⟨u, List.mem_cons_of_mem _ hu, hc⟩

/-- No separator stands in the name of a module. -/
theorem not_isSeparator_of_mem_moduleName {filename m : Text} (h : moduleName filename = .ok m) :
    ∀ c ∈ m, isSeparator c = false := by
  obtain ⟨stem, -, rfl⟩ := moduleName_eq_ok_iff.mp h
  intro c hc
  obtain ⟨x, -, rfl⟩ := List.mem_map.mp hc
  cases hx : isSeparator x with
  | false => simpa using hx
  | true => rfl

/-- A reference is recorded if its source holds no separator and its symbol is well formed. -/
theorem Reference.refusal?_eq_none {r : Reference} (hs : ∀ c ∈ r.source, isSeparator c = false)
    (hsymbol : ∀ w, r.symbol = some w → wellFormedSymbol w = true) : r.refusal? = none := by
  have hany : r.source.any isSeparator = false :=
    List.any_eq_false.mpr fun c hc => by simp [hs c hc]
  obtain ⟨target, source, symbol⟩ := r
  cases symbol with
  | none => simp_all [refusal?]
  | some w => simp_all [refusal?]

namespace Written

variable {m : Text}

theorem not_isSeparator_of_isNameChar {c : Char} (h : isNameChar c = true) :
    isSeparator c = false := by
  simp [isSeparator, ne_of_isNameChar h (d := '/') (by decide),
    ne_of_isNameChar h (d := '\\') (by decide)]

theorem Word.wellFormed (w : Word) : Reference.wellFormedSymbol w.text = true := by
  obtain ⟨c, r, hr⟩ := List.exists_cons_of_ne_nil w.ne_nil
  have hc := isBlank_of_isNameChar (w.isName.chars c (hr ▸ List.mem_cons_self ..))
  have hblank : w.text.all isBlank = false := by simp [hr, hc]
  have hdot : w.text.contains '.' = false :=
    Bool.eq_false_iff.mpr fun h => w.dot_notMem (List.contains_iff_mem.mp h)
  simp only [Reference.wellFormedSymbol, hblank, hdot, Bool.not_false, Bool.and_self]

/-! ### Sources -/

/-- Words joined by dots do not begin with a dot. -/
theorem head?_dottedName (ws : List Word) :
    (dottedName (ws.map Word.text)).head? ≠ some '.' := by
  cases ws with
  | nil => simp [dottedName]
  | cons w ws =>
      obtain ⟨c, r, hr⟩ := List.exists_cons_of_ne_nil w.ne_nil
      have hc : c ≠ '.' := by
        rintro rfl
        exact w.dot_notMem (hr ▸ List.mem_cons_self ..)
      have hhead : (dottedName ((w :: ws).map Word.text)).head? = some c := by
        cases ws with
        | nil => simp [dottedName, hr]
        | cons v ws => rw [List.map_cons, List.map_cons, dottedName_cons_cons, hr]; rfl
      rw [hhead]
      exact fun h => hc (Option.some.inj h)

/-- **Sources** resolve component by component. -/
theorem resolve_text (s : Source) (m : Text) : resolve m s.text = s.resolved m := by
  have hhead : s.pathText.head? ≠ some '.' := head?_dottedName s.path
  rw [Source.text, resolve_replicate_append m hhead, Source.resolved]
  by_cases hd : s.dots = 0
  · rw [if_pos hd, if_pos hd]
  rw [if_neg hd, if_neg hd]
  by_cases hn : s.dots < (components m).length
  · rw [if_pos hn, if_pos hn]
    by_cases hp : s.path = []
    · simp [Source.pathText, hp, dottedName]
    · -- the dots leave a component, so a dot joins it to the path
      have hbase : (components m).take ((components m).length - s.dots) ≠ [] := by
        intro h
        have hlength := congrArg List.length h
        rw [List.length_take, List.length_nil] at hlength
        omega
      have hpath : s.pathText ≠ [] := (isName_dottedName hp).ne_nil
      simp only [if_neg hpath]
      rw [dottedName_append hbase (by simpa using hp), Source.pathText]
  · rw [if_neg hn, if_neg hn]
    rfl

/-- The name of a module in a direct import is absolute. -/
theorem absoluteName_text (d : DottedName) (places : List Text) :
    absoluteName d.text places = .ok d.text := by
  have hdots : leadingDots d.text = 0 := by
    have h := takeWhile_dots (p := 0) (head?_dottedName (d.first :: d.rest))
    rw [leadingDots, DottedName.text]
    exact congrArg List.length h
  rw [absoluteName, hdots]
  rfl

theorem not_isSeparator_of_mem_resolved (hm : ∀ c ∈ m, isSeparator c = false) {s : Source}
    {package : Text} (h : s.resolved m = .ok package) : ∀ c ∈ package, isSeparator c = false := by
  have hword (w : Word) : ∀ c ∈ w.text, isSeparator c = false := fun c hc =>
    not_isSeparator_of_isNameChar (w.isName.chars c hc)
  have hjoined (ws : List Text) (hws : ∀ w ∈ ws, ∀ c ∈ w, isSeparator c = false) :
      ∀ c ∈ dottedName ws, isSeparator c = false := by
    intro c hc
    rcases mem_dottedName hc with rfl | ⟨w, hw, hcw⟩
    · decide
    · exact hws w hw c hcw
  have hpath : ∀ w ∈ s.path.map Word.text, ∀ c ∈ w, isSeparator c = false := by
    intro w hw
    obtain ⟨v, -, rfl⟩ := List.mem_map.mp hw
    exact hword v
  unfold Source.resolved at h
  split at h
  · cases h
    exact hjoined _ hpath
  · split at h
    · cases h
      refine hjoined _ fun w hw => ?_
      rcases List.mem_append.mp hw with hw | hw
      · exact fun c hc => hm c (Text.of_mem_splitOn (List.mem_of_mem_take hw) c hc).1
      · exact hpath w hw
    · cases h

/-! ### References -/

/-- **References.**  What a written import asks of the index: to record its references, or to
refuse it. -/
theorem statement_meaning (s : Import) (m : Text) :
    Plan.statement m s.meaning =
      match s.references m with
      | .error e => [.refuse e]
      | .ok refs => .target m :: refs.map .reference := by
  cases s with
  | direct modules =>
      have hsource (d : DottedName) :
          Plan.directSource m d.text = .reference ⟨m, d.text, none⟩ := by
        rw [Plan.directSource, absoluteName_text]
      simp only [Import.meaning, Plan.statement, Plan.direct, Import.references, List.map_map]
      exact congrArg (.target m :: ·) (List.map_congr_left fun d _ => hsource d)
  | selective before source after objects =>
      simp only [Import.meaning, Plan.statement, Plan.selective, Import.references, resolve_text,
        names_objects]
      cases source.resolved m with
      | error e => rfl
      | ok package => simp [Except.map]

theorem target_of_mem_references {s : Import} {refs : List Reference}
    (h : s.references m = .ok refs) : ∀ r ∈ refs, r.target = m := by
  intro r hr
  cases s with
  | direct modules =>
      cases h
      obtain ⟨d, -, rfl⟩ := List.mem_map.mp hr
      rfl
  | selective before source after objects =>
      cases hs : source.resolved m with
      | error e => simp only [Import.references, hs] at h; cases h
      | ok package =>
          simp only [Import.references, hs] at h
          cases h
          obtain ⟨w, -, rfl⟩ := List.mem_map.mp hr
          rfl

/-- No reference of a written import is refused. -/
theorem refusal?_of_mem_references (hm : ∀ c ∈ m, isSeparator c = false) {s : Import}
    {refs : List Reference} (h : s.references m = .ok refs) : ∀ r ∈ refs, r.refusal? = none := by
  intro r hr
  cases s with
  | direct modules =>
      cases h
      obtain ⟨d, -, rfl⟩ := List.mem_map.mp hr
      exact Reference.refusal?_eq_none
        (fun c hc => not_isSeparator_of_isNameChar (d.isName.chars c hc)) (by simp)
  | selective before source after objects =>
      cases hs : source.resolved m with
      | error e => simp only [Import.references, hs] at h; cases h
      | ok package =>
          simp only [Import.references, hs] at h
          cases h
          obtain ⟨w, -, rfl⟩ := List.mem_map.mp hr
          exact Reference.refusal?_eq_none (not_isSeparator_of_mem_resolved hm hs)
            fun v hv => Option.some.inj hv ▸ w.wellFormed

/-! ### Files -/

/-- The plan of a file that consists of one written line. -/
theorem file_text {filename : Text} (hm : moduleName filename = .ok m) (l : Line) :
    Plan.file filename l.text =
      .note (.analysing filename) :: .note (.parsing l.code filename) ::
        Plan.statement m l.statement.meaning := by
  rw [Plan.file, importEvents_text, importLines_text]
  simp only [List.map_nil, List.flatMap_singleton]
  rw [Plan.line, Plan.lineWith, hm, Line.code, ofLine_text]
  rfl

/-- **What a written import means.**  Reading a file `filename` with the module name `m` whose
text is one written import, in whatever layout, finds one import line.  If the import has the
references `refs` in `m`, then nothing is refused, and the index gains exactly these, in order: in
the list of `m`, and in its list inside the project, if `m` has one there, each as often as its
source counts.  Otherwise the source leaves the top-level package; this is what is reported, and
the index is the same as before. -/
theorem run_file_text {filename : Text} (hm : moduleName filename = .ok m) (x : Index)
    (l : Line) :
    (Statement.importLines l.text).length = 1 ∧
      match l.references m with
      | .ok refs =>
        (x.run (Plan.file filename l.text)).refusal? = none ∧
          x.Gains m refs (x.run (Plan.file filename l.text)).index
      | .error e =>
        (x.run (Plan.file filename l.text)).refusal? = some e ∧
          (x.run (Plan.file filename l.text)).index = x := by
  refine ⟨by rw [importLines_text]; rfl, ?_⟩
  -- the index enters only after the plan of the file is known
  rw [file_text hm, statement_meaning, Line.references]
  cases h : l.statement.references m with
  | error e => exact ⟨rfl, rfl⟩
  | ok refs =>
      exact x.gains_run (target_of_mem_references h)
        (refusal?_of_mem_references (not_isSeparator_of_mem_moduleName hm) h)

/-- An indented import from two levels up, in parentheses, with an alias, tabs, a comma at the
end and a comment. -/
def importOfSibling : Line where
  indent := ⟨['\t'], rfl⟩
  statement := .selective ⟨[' '], rfl⟩
    { dots := 2, path := [{ text := "views".toList }] } ⟨[' ', '\t'], rfl⟩
    { words := {
        first := {
          before := ⟨[' '], rfl⟩
          name := { text := "Page".toList }
          alias? := some { before := ⟨['\t'], rfl⟩, after := ⟨[' ', ' '], rfl⟩,
                           word := { text := ['P'] } }
          after := ⟨[' '], rfl⟩ }
        rest := [{
          before := ⟨[], rfl⟩
          name := { text := "Edit".toList }
          alias? := none
          after := ⟨['\t'], rfl⟩ }] }
      comma? := some ⟨[' '], rfl⟩
      parentheses? := some ⟨⟨[' '], rfl⟩, ⟨[' '], rfl⟩⟩ }
  comment? := some { text := " import both; always".toList }

/-- In `app.talks.models` it records two names of `app.views`, and the views are a module of the
project, so both count there. -/
theorem importOfSibling_gained :
    importOfSibling.text =
        "\tfrom  ..views \t import  ( Page\tas  P ,Edit\t, ) # import both; always".toList ∧
      let x := Index.fresh (some ["app.talks.models".toList, "app.views".toList])
      let y := (x.run (Plan.file "app/talks/models.py".toList importOfSibling.text)).index
      y.all.list "app.talks.models".toList = ["app.views.Page".toList, "app.views.Edit".toList] ∧
        y.inProject.list "app.talks.models".toList =
          ["app.views.Page".toList, "app.views.Edit".toList] := by
  refine ⟨by decide, ?_⟩
  have hm : moduleName "app/talks/models.py".toList = .ok "app.talks.models".toList := by decide
  have hread := (run_file_text hm
    (.fresh (some ["app.talks.models".toList, "app.views".toList])) importOfSibling).2
  have hrefs : importOfSibling.references "app.talks.models".toList =
      .ok [⟨"app.talks.models".toList, "app.views".toList, some "Page".toList⟩,
        ⟨"app.talks.models".toList, "app.views".toList, some "Edit".toList⟩] := by rfl
  rw [hrefs] at hread
  obtain ⟨-, hgains⟩ := hread
  refine ⟨(hgains.list_all _).trans ?_, (hgains.list_inProject _).trans ?_⟩ <;> decide

end Written

end ImportXref

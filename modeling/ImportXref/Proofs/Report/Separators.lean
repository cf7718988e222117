import ImportXref.Proofs.Index.Files
import ImportXref.Proofs.Report.Projection

/-!
# Report — separators in recorded entries

A reference is recorded only if its source has no separator, but its symbol is not looked at for
one.  So the column of an entry, the name of the module it comes from, never has a separator,
and neither has an imported module; a symbol that is written with a separator keeps it.

* `Reference.any_isSeparator_entry`: an entry has a separator exactly if its symbol has one.
* `Citation.any_isSeparator_column`: the column of an entry has none.
* `History.separator_in_list_iff`: which lists of an index hold an entry with a separator.
-/

namespace ImportXref

namespace Reference

/-- The symbol of the reference is written with a separator. -/
def SymbolHasSeparator (r : Reference) : Prop :=
  ∃ w, r.symbol = some w ∧ w.any isSeparator = true

variable {r : Reference}

/-- A reference that is not refused has no separator in its source. -/
theorem any_isSeparator_source (hr : r.refusal? = none) : r.source.any isSeparator = false := by
  unfold refusal? at hr
  split at hr
  · cases hr
  · next h => exact Bool.eq_false_iff.mpr h

/-- The entry of a reference that is not refused has a separator exactly if its symbol has one. -/
theorem any_isSeparator_entry (hr : r.refusal? = none) :
    r.entry.any isSeparator = true ↔ r.SymbolHasSeparator := by
  have hsource := any_isSeparator_source hr
  unfold entry SymbolHasSeparator
  cases r.symbol with
  | none => simp [hsource]
  | some w =>
      have hdot : isSeparator '.' = false := by decide
      simp [hsource, hdot]

end Reference

/-- The column of a recorded entry has no separator. -/
theorem Citation.any_isSeparator_column {r : Reference} (hr : r.refusal? = none) :
    (column r.entry).any isSeparator = false := by
  have hsource := Reference.any_isSeparator_source hr
  cases hs : r.symbol with
  | some w => rwa [(column_entry hr hs).1]
  | none =>
      -- the entry is the source, and its column is a part of it
      have hentry : r.entry = r.source := by rw [Reference.entry, hs]
      rw [hentry]
      rcases (column_name r.source).2 with h | ⟨h, -⟩
      · rw [h, List.any_append, Bool.or_eq_false_iff] at hsource
        exact hsource.1
      · rw [h]
        rfl

/-! ### The symbols that an operation asks for -/

/-- The symbols that a statement imports by name. -/
def Statement.symbols : Statement → List Text
  | selective _ objects => Clause.names objects
  | direct _ | other => []

/-- The symbols that an operation asks to record. -/
def Operation.symbols : Operation → List Text
  | addTarget _ | addDirect .. => []
  | addReference r => r.symbol.toList
  | addSelective _ _ objects => Clause.names objects
  | readLine _ line => (Statement.ofLine line).symbols
  | readLineWith classify _ line => (classify line).symbols
  | readFile _ text => (Statement.importLines text).flatMap fun l => (Statement.ofLine l).symbols

namespace Plan

/-- The symbols of the references in a plan. -/
def symbols (plan : List Action) : List Text :=
  plan.filterMap fun a => a.recorded?.bind Reference.symbol

/-- A plan has no symbols but `ws`, and all of them if it is not refused. -/
structure Asks (plan : List Action) (ws : List Text) : Prop where
  subset : ∀ w ∈ symbols plan, w ∈ ws
  all : refusal? plan = none → ∀ w ∈ ws, w ∈ symbols plan

theorem Asks.of_eq {plan : List Action} {ws : List Text} (h : symbols plan = ws) :
    Asks plan ws :=
  ⟨fun _ hw => h ▸ hw, fun _ _ hw => h ▸ hw⟩

theorem asks_selective (target source objects : Text) :
    Asks (selective target source objects) (Clause.names objects) := by
  unfold selective
  cases resolve target source with
  | error e => exact ⟨nofun, nofun⟩
  | ok package =>
      refine .of_eq ?_
      rw [symbols, List.filterMap_cons_none rfl, List.filterMap_map]
      exact List.filterMap_some

theorem asks_direct (target : Text) (sources : List Text) : Asks (direct target sources) [] := by
  refine .of_eq (List.filterMap_eq_nil_iff.mpr fun a ha => ?_)
  rcases List.mem_cons.mp ha with rfl | ha
  · rfl
  · obtain ⟨s, -, rfl⟩ := List.mem_map.mp ha
    unfold directSource
    cases absoluteName s (locations target) <;> rfl

theorem asks_lineWith (classify : Text → Statement) (filename line : Text) :
    Asks (lineWith classify filename line) (classify line).symbols := by
  unfold lineWith
  cases moduleName filename with
  | error e => exact ⟨nofun, nofun⟩
  | ok m =>
      -- what is only reported has no symbol and is not refused
      suffices h : Asks (statement m (classify line)) (classify line).symbols from ⟨h.1, h.2⟩
      cases classify line with
      | selective source objects => exact asks_selective m source objects
      | direct sources => exact asks_direct m sources
      | other => exact .of_eq rfl

/-- Plans one after the other ask for the symbols of each of them. -/
theorem Asks.flatMap {α : Type} {plan : α → List Action} {ws : α → List Text} {l : List α}
    (h : ∀ a ∈ l, Asks (plan a) (ws a)) : Asks (l.flatMap plan) (l.flatMap ws) := by
  have hsymbols : symbols (l.flatMap plan) = l.flatMap fun a => symbols (plan a) :=
    List.filterMap_flatMap ..
  refine ⟨fun w hw => ?_, fun hnone w hw => ?_⟩
  · rw [hsymbols] at hw
    obtain ⟨a, ha, hwa⟩ := List.mem_flatMap.mp hw
    exact List.mem_flatMap.mpr ⟨a, ha, (h a ha).subset w hwa⟩
  · rw [refusal?_flatMap, List.findSome?_eq_none_iff] at hnone
    obtain ⟨a, ha, hwa⟩ := List.mem_flatMap.mp hw
    rw [hsymbols]
    exact List.mem_flatMap.mpr ⟨a, ha, (h a ha).all (hnone a ha) w hwa⟩

/-- A file asks for the symbols of its import lines. -/
theorem asks_file (filename text : Text) :
    Asks (file filename text)
      ((Statement.importLines text).flatMap fun l => (Statement.ofLine l).symbols) := by
  have hlines := Asks.flatMap (l := Statement.importLines text) fun l _ =>
    asks_lineWith Statement.ofLine filename l
  obtain ⟨before, after, hfile⟩ := file_eq_notes filename text
  have hnotes (events : List Event) : symbols (events.map .note) = [] :=
    List.filterMap_eq_nil_iff.mpr fun a ha => by obtain ⟨e, -, rfl⟩ := List.mem_map.mp ha; rfl
  have hsymbols : symbols (file filename text) = symbols (importLines filename text) := by
    rw [hfile, symbols, List.filterMap_append, List.filterMap_append]
    exact (congrArg₂ (· ++ ·) (hnotes before) (congrArg _ (hnotes after))).trans (List.append_nil _)
  have hrefusal : refusal? (file filename text) = refusal? (importLines filename text) := by
    rw [refusal?_file, importLines, refusal?_flatMap]
  exact ⟨fun w hw => hlines.subset w (hsymbols ▸ hw),
    fun hnone w hw => hsymbols ▸ hlines.all (hrefusal ▸ hnone) w hw⟩

end Plan

/-- Every operation asks for the symbols it names. -/
theorem Operation.asks (op : Operation) : Plan.Asks op.plan op.symbols := by
  cases op with
  | addTarget m => exact .of_eq rfl
  | addReference r =>
      refine .of_eq ?_
      cases h : r.symbol <;> simp [plan, symbols, Plan.symbols, Action.recorded?, h]
  | addSelective target source objects => exact Plan.asks_selective target source objects
  | addDirect target sources => exact Plan.asks_direct target sources
  | readLine filename line => exact Plan.asks_lineWith Statement.ofLine filename line
  | readLineWith classify filename line => exact Plan.asks_lineWith classify filename line
  | readFile filename text => exact Plan.asks_file filename text

/-! ### The lists of an index -/

namespace History

/-- An entry of a list comes from a reference in the log. -/
theorem mem_list_all_iff (h : History) {t e : Text} :
    e ∈ h.index.all.list t ↔ ∃ r ∈ h.log, r.target = t ∧ r.entry = e := by
  rw [h.list_all]
  simp only [Reference.entriesOf, List.mem_map, List.mem_filter, decide_eq_true_eq, and_assoc]

/-- An entry inside the project comes from a reference in the log whose source counts. -/
theorem mem_list_inProject_iff (h : History) {t e : Text} :
    e ∈ h.index.inProject.list t ↔
      t ∈ h.modules ∧ ∃ r ∈ h.log, r.target = t ∧ 0 < h.weight r.source ∧ r.entry = e := by
  by_cases ht : t ∈ h.modules
  · rw [h.list_inProject ht]
    simp only [Reference.weighted, List.mem_flatMap, List.mem_filter, decide_eq_true_eq,
      List.mem_replicate, and_assoc, ht, true_and, Nat.pos_iff_ne_zero, eq_comm (a := e)]
  · have hnone : h.index.inProject.find? t = none := Option.not_isSome_iff_eq_none.mp fun hs =>
      ht ((h.mem_keys_inProject t).mp (RefMap.find?_isSome_iff.mp hs)).2
    rw [RefMap.list, hnone]
    simp [ht]

/-- A recorded symbol was asked for. -/
theorem exists_asked (h : History) {r : Reference} (hr : r ∈ h.log) {w : Text}
    (hw : r.symbol = some w) : ∃ op ∈ h.operations, w ∈ op.symbols := by
  obtain ⟨op, hop, hrec⟩ := List.mem_flatMap.mp hr
  obtain ⟨a, ha, har⟩ := List.mem_filterMap.mp hrec
  refine ⟨op, hop, op.asks.subset w (List.mem_filterMap.mpr ⟨a, ?_, ?_⟩)⟩
  · exact List.takeWhile_subset _ ha
  · rw [har]
    exact hw

/-- The symbols of an operation that is not refused are recorded. -/
theorem exists_recorded (h : History) {op : Operation} (hop : op ∈ h.operations)
    (hnone : Plan.refusal? op.plan = none) {w : Text} (hw : w ∈ op.symbols) :
    ∃ r ∈ h.log, r.symbol = some w := by
  have hdone : Plan.carriedOut op.plan = op.plan := List.takeWhile_eq_self_iff.mpr fun a ha =>
    Option.isNone_iff_eq_none.mpr (List.findSome?_eq_none_iff.mp hnone a ha)
  obtain ⟨a, ha, haw⟩ := List.mem_filterMap.mp (op.asks.all hnone w hw)
  obtain ⟨r, hr, hrw⟩ := Option.bind_eq_some_iff.mp haw
  refine ⟨r, List.mem_flatMap.mpr ⟨op, hop, List.mem_filterMap.mpr ⟨a, ?_, hr⟩⟩, hrw⟩
  rwa [hdone]

/-- **Separators stand in symbols only.**  No column of a recorded entry has a separator.  The
list of a module holds an entry with one exactly if a reference of that module was recorded whose
symbol has one, and its list inside the project exactly if such a reference counts there.  Nothing
of the kind is recorded as long as no operation asks for a symbol with a separator; and what an
operation that is not refused asks for is recorded, separators included. -/
theorem separator_in_list_iff (h : History) :
    (∀ t e, e ∈ h.index.all.list t ∨ e ∈ h.index.inProject.list t →
      (Citation.column e).any isSeparator = false) ∧
    (∀ t, (∃ e ∈ h.index.all.list t, e.any isSeparator = true) ↔
      ∃ r ∈ h.log, r.target = t ∧ r.SymbolHasSeparator) ∧
    (∀ t, (∃ e ∈ h.index.inProject.list t, e.any isSeparator = true) ↔
      t ∈ h.modules ∧ ∃ r ∈ h.log, r.target = t ∧ 0 < h.weight r.source ∧
        r.SymbolHasSeparator) ∧
    ((∀ op ∈ h.operations, ∀ w ∈ op.symbols, w.any isSeparator = false) →
      ∀ r ∈ h.log, ¬ r.SymbolHasSeparator) ∧
    (∀ op ∈ h.operations, Plan.refusal? op.plan = none → ∀ w ∈ op.symbols,
      ∃ r ∈ h.log, r.symbol = some w) := by
  have hentry {r : Reference} (hr : r ∈ h.log) :
      r.entry.any isSeparator = true ↔ r.SymbolHasSeparator :=
    Reference.any_isSeparator_entry (h.refusal?_of_mem_log hr)
  refine ⟨fun t e he => ?_, fun t => ?_, fun t => ?_, fun hclean r hr => ?_,
    fun op hop hnone w hw => h.exists_recorded hop hnone hw⟩
  · obtain ⟨r, hr, rfl⟩ : ∃ r ∈ h.log, r.entry = e := by
      rcases he with he | he
      · obtain ⟨r, hr, -, hre⟩ := h.mem_list_all_iff.mp he
        exact ⟨r, hr, hre⟩
      · obtain ⟨-, r, hr, -, -, hre⟩ := h.mem_list_inProject_iff.mp he
        exact ⟨r, hr, hre⟩
    exact Citation.any_isSeparator_column (h.refusal?_of_mem_log hr)
  · constructor
    · rintro ⟨e, he, hsep⟩
      obtain ⟨r, hr, htarget, rfl⟩ := h.mem_list_all_iff.mp he
      exact ⟨r, hr, htarget, (hentry hr).mp hsep⟩
    · rintro ⟨r, hr, htarget, hsep⟩
      exact ⟨r.entry, h.mem_list_all_iff.mpr ⟨r, hr, htarget, rfl⟩, (hentry hr).mpr hsep⟩
  · constructor
    · rintro ⟨e, he, hsep⟩
      obtain ⟨ht, r, hr, htarget, hweight, rfl⟩ := h.mem_list_inProject_iff.mp he
      exact ⟨ht, r, hr, htarget, hweight, (hentry hr).mp hsep⟩
    · rintro ⟨ht, r, hr, htarget, hweight, hsep⟩
      exact ⟨r.entry, h.mem_list_inProject_iff.mpr ⟨ht, r, hr, htarget, hweight, rfl⟩,
        (hentry hr).mpr hsep⟩
  · rintro ⟨w, hw, hsep⟩
    obtain ⟨op, hop, hasked⟩ := h.exists_asked hr hw
    rw [hclean op hop w hasked] at hsep
    cases hsep

/-- `main.py` imports what is written like a path from a module of the project. -/
def importOfPath : History where
  filenames := ["main.py".toList, "lib.py".toList]
  start := .fresh (some ["main".toList, "lib".toList])
  ofFiles_filenames := rfl
  operations := [.readLine "main.py".toList "from lib import a/b".toList]

/-- The line is not refused, and both lists of `main` hold the entry `lib.a/b`. -/
theorem importOfPath_recorded :
    (∃ r ∈ importOfPath.log, r.symbol = some "a/b".toList) ∧
    (∃ e ∈ importOfPath.index.all.list "main".toList, e.any isSeparator = true) ∧
    (∃ e ∈ importOfPath.index.inProject.list "main".toList, e.any isSeparator = true) ∧
    importOfPath.index.inProject.list "main".toList = ["lib.a/b".toList] := by
  let r : Reference := ⟨"main".toList, "lib".toList, some "a/b".toList⟩
  have hr : r ∈ importOfPath.log := by decide
  have hsep : r.SymbolHasSeparator := ⟨"a/b".toList, rfl, by decide⟩
  obtain ⟨-, hall, hin, -, hasked⟩ := separator_in_list_iff importOfPath
  exact ⟨hasked _ (List.mem_singleton_self _) (by decide) "a/b".toList (by decide),
    (hall _).mpr ⟨r, hr, rfl, hsep⟩,
    (hin _).mpr ⟨by decide, r, hr, rfl, by decide, hsep⟩, by decide⟩

end History

end ImportXref

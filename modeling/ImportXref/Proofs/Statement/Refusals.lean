import ImportXref.Proofs.Index.Frame
import ImportXref.Proofs.Statement.Clause
import ImportXref.Proofs.Statement.Meaning

/-!
# Statements — exactly when a line is refused

A line of a file with a module name is refused for what is written on it, whatever the index: a
source with as many leading dots as the module has components, a source with a separator, or a
name with a dot.  The last two count only where a reference is made.  A name is never blank, for
it is what trimming left.

* `resolve_eq`: what any source resolves to, component by component.
* `any_isSeparator_settled`: resolving neither adds a separator nor loses one.
* `not_blank_of_mem_names`: the names of a clause are not blank.
* `Statement.fault?`: the fault of a statement, read off its text.
* `refusal?_run_line`: a line is refused for the fault of its statement, and for nothing else.
-/

namespace ImportXref

/-! ### Sources -/

/-- A reference is its leading dots and what follows them. -/
theorem eq_replicate_append_afterDots (s : Text) :
    s = List.replicate (leadingDots s) '.' ++ afterDots s := by
  have hdots : s.takeWhile (· == '.') = List.replicate (leadingDots s) '.' :=
    List.eq_replicate_iff.mpr ⟨rfl, fun c hc => by simpa using List.mem_takeWhile_imp hc⟩
  rw [← hdots]
  exact List.takeWhile_append_dropWhile.symm

theorem head?_afterDots (s : Text) : (afterDots s).head? ≠ some '.' := by
  intro h
  cases Text.of_head?_dropWhile h

/-- The absolute name of a source whose dots leave a component of the module `m`: the source
itself if it has no dots, else what follows them below the components that they leave. -/
def settled (m source : Text) : Text :=
  if leadingDots source = 0 then source
  else
    let base := (components m).take ((components m).length - leadingDots source)
    dottedName (base ++ if afterDots source = [] then [] else [afterDots source])

/-- **Resolution of any source.** -/
theorem resolve_eq (m source : Text) :
    resolve m source =
      if (components m).length ≤ leadingDots source then
        .error (.depthExceeded source m (leadingDots source))
      else .ok (settled m source) := by
  have hres := resolve_replicate_append m (p := leadingDots source) (head?_afterDots source)
  rw [← eq_replicate_append_afterDots] at hres
  have hn := List.length_pos_iff.mpr (components_ne_nil m)
  rw [hres, settled]
  by_cases h0 : leadingDots source = 0
  · -- without dots the source is what follows them
    have hs : afterDots source = source := by
      have hsplit := eq_replicate_append_afterDots source
      rw [h0, List.replicate_zero, List.nil_append] at hsplit
      exact hsplit.symm
    rw [if_pos h0, if_neg (by omega), if_pos h0, hs]
  · rw [if_neg h0, if_neg h0]
    by_cases hp : leadingDots source < (components m).length
    · rw [if_pos hp, if_neg (by omega)]
      have hbase : (components m).take ((components m).length - leadingDots source) ≠ [] := by
        intro h
        exact (List.take_eq_nil_iff.mp h).elim (Nat.sub_ne_zero_of_lt hp) (components_ne_nil m)
      by_cases hr : afterDots source = []
      · simp [hr]
      · simp only [if_neg hr]
        rw [dottedName_append hbase (by simp)]
        simp [dottedName]
    · rw [if_neg hp, if_pos (by omega)]

/-- Joining with dots adds no separator. -/
theorem any_isSeparator_dottedName (ws : List Text) :
    (dottedName ws).any isSeparator = ws.any (·.any isSeparator) := by
  induction ws with
  | nil => rfl
  | cons w ws ih =>
      cases ws with
      | nil => simp [dottedName]
      | cons v ws =>
          have hdot : isSeparator '.' = false := by decide
          rw [dottedName_cons_cons, List.any_append, List.any_cons, ih, hdot, Bool.false_or,
            List.any_cons (a := w)]

/-- **Separators** of an absolute name are those of the source as written, where the module has
none. -/
theorem any_isSeparator_settled {m : Text} (hm : ∀ c ∈ m, isSeparator c = false) (source : Text) :
    (settled m source).any isSeparator = source.any isSeparator := by
  unfold settled
  by_cases h0 : leadingDots source = 0
  · rw [if_pos h0]
  have hdots : (List.replicate (leadingDots source) '.').any isSeparator = false :=
    List.any_eq_false.mpr fun c hc => by rw [List.eq_of_mem_replicate hc]; decide
  have hbase : ((components m).take ((components m).length - leadingDots source)).any
      (·.any isSeparator) = false := by
    refine List.any_eq_false.mpr fun w hw => ?_
    have hwords := Text.of_mem_splitOn (List.mem_of_mem_take hw)
    rw [Bool.not_eq_true]
    exact List.any_eq_false.mpr fun c hc => by simp [hm c (hwords c hc).1]
  have hsource : source.any isSeparator = (afterDots source).any isSeparator := by
    have h := congrArg (List.any · isSeparator) (eq_replicate_append_afterDots source)
    rwa [List.any_append, hdots, Bool.false_or] at h
  rw [if_neg h0, any_isSeparator_dottedName, List.any_append, hbase, Bool.false_or, hsource]
  by_cases hr : afterDots source = []
  · simp [hr]
  · simp [hr]

/-! ### Names -/

/-- **No blank names.** -/
theorem not_blank_of_mem_names {clause w : Text} (hw : w ∈ Clause.names clause) :
    w.all isBlank = false := by
  obtain ⟨hmem, hne⟩ := List.mem_filter.mp hw
  obtain ⟨piece, -, rfl⟩ := List.mem_map.mp hmem
  have hne' : Clause.pieceName piece ≠ [] := by simpa using hne
  rw [Clause.pieceName_eq] at hne' ⊢
  exact Text.all_isBlank_trim hne'

/-- A name of a clause is a symbol unless it has a dot. -/
theorem wellFormedSymbol_of_mem_names {clause w : Text} (hw : w ∈ Clause.names clause) :
    Reference.wellFormedSymbol w = !w.contains '.' := by
  rw [Reference.wellFormedSymbol, not_blank_of_mem_names hw, Bool.not_false, Bool.true_and]

/-! ### The fault of a statement -/

namespace Statement

/-- Why an imported module cannot be recorded in the module `m`: it has as many leading dots as
`m` has components, or else a separator. -/
def sourceFault? (m source : Text) : Option RecordError :=
  if (components m).length ≤ leadingDots source then
    some (.depthExceeded source m (leadingDots source))
  else if source.any isSeparator then some (.separatorInSource (settled m source))
  else none

/-- Why a statement cannot be recorded in the module `m`, as far as its text tells: the fault of
the first imported module that has one; or, of a selective import, too many leading dots, then,
if it names anything, a separator in the source, then the first name with a dot. -/
def fault? (m : Text) : Statement → Option RecordError
  | direct sources => sources.findSome? (sourceFault? m)
  | selective source objects =>
    if (components m).length ≤ leadingDots source then
      some (.depthExceeded source m (leadingDots source))
    else if Clause.names objects = [] then none
    else if source.any isSeparator then some (.separatorInSource (settled m source))
    else ((Clause.names objects).find? (·.contains '.')).map .malformedSymbol
  | other => none

end Statement

section

variable {m : Text}

theorem refusal?_directSource_eq (hm : ∀ c ∈ m, isSeparator c = false) (source : Text) :
    (Plan.directSource m source).refusal? = Statement.sourceFault? m source := by
  have hres := resolve_eq m source
  rw [resolve] at hres
  rw [Plan.directSource, hres, Statement.sourceFault?]
  by_cases hp : (components m).length ≤ leadingDots source
  · rw [if_pos hp, if_pos hp]
    rfl
  · rw [if_neg hp, if_neg hp, ← any_isSeparator_settled hm source]
    rfl

theorem refusal?_direct (hm : ∀ c ∈ m, isSeparator c = false) (sources : List Text) :
    Plan.refusal? (Plan.direct m sources) = (Statement.direct sources).fault? m := by
  rw [Plan.direct, Plan.refusal?, List.findSome?_cons, List.findSome?_map, Statement.fault?]
  exact congrArg (List.findSome? · sources) (funext (refusal?_directSource_eq hm))

/-- The first of some names with a dot is the first that is refused. -/
theorem findSome?_names {target package : Text} (hpackage : package.any isSeparator = false)
    (names : List Text) (hnames : ∀ w ∈ names, Reference.wellFormedSymbol w = !w.contains '.') :
    (names.findSome? fun w => Reference.refusal? ⟨target, package, some w⟩) =
      (names.find? (·.contains '.')).map .malformedSymbol := by
  induction names with
  | nil => rfl
  | cons w names ih =>
      obtain ⟨hw, hrest⟩ := List.forall_mem_cons.mp hnames
      have hrefusal : Reference.refusal? ⟨target, package, some w⟩ =
          if w.contains '.' then some (.malformedSymbol w) else none := by
        simp only [Reference.refusal?, hpackage, hw]
        cases w.contains '.' <;> rfl
      rw [List.findSome?_cons, List.find?_cons, hrefusal]
      cases w.contains '.' with
      | true => rfl
      | false => exact ih hrest

theorem refusal?_selective (hm : ∀ c ∈ m, isSeparator c = false) (source objects : Text) :
    Plan.refusal? (Plan.selective m source objects) =
      (Statement.selective source objects).fault? m := by
  have hres := resolve_eq m source
  rw [Statement.fault?]
  by_cases hp : (components m).length ≤ leadingDots source
  · rw [if_pos hp] at hres ⊢
    rw [Plan.selective, hres]
    rfl
  · rw [if_neg hp] at hres ⊢
    have hplan : Plan.refusal? (Plan.selective m source objects) =
        (Clause.names objects).findSome? fun w =>
          Reference.refusal? ⟨m, settled m source, some w⟩ := by
      rw [Plan.selective, hres, Plan.refusal?, List.findSome?_cons, List.findSome?_map]
      rfl
    rw [hplan]
    by_cases hs : source.any isSeparator = true
    · -- the first name, if there is one, meets the separator
      rw [← any_isSeparator_settled hm source] at hs
      cases hn : Clause.names objects with
      | nil => rfl
      | cons w ws =>
          rw [if_neg (List.cons_ne_nil w ws), ← any_isSeparator_settled hm source, if_pos hs,
            List.findSome?_cons, Reference.refusal?, if_pos hs]
    · have hpackage : (settled m source).any isSeparator = false := by
        rw [any_isSeparator_settled hm source]
        exact Bool.eq_false_iff.mpr hs
      rw [if_neg hs, findSome?_names hpackage _ fun w hw => wellFormedSymbol_of_mem_names hw]
      split
      · next hn => rw [hn]; rfl
      · rfl

/-- **A line** is refused for the fault of its statement. -/
theorem refusal?_line {filename : Text} (hm : moduleName filename = .ok m) (line : Text) :
    Plan.refusal? (Plan.line filename line) = (Statement.ofLine line).fault? m := by
  have hclean := not_isSeparator_of_mem_moduleName hm
  rw [Plan.line, plan_lineWith hm, Plan.refusal?_notes]
  cases Statement.ofLine line with
  | direct sources => exact refusal?_direct hclean sources
  | selective source objects => exact refusal?_selective hclean source objects
  | other => rfl

/-- No fault is a blank symbol. -/
theorem not_blank_of_fault? {st : Statement} {w : Text}
    (h : st.fault? m = some (.malformedSymbol w)) : w.all isBlank = false ∧ '.' ∈ w := by
  cases st with
  | other => cases h
  | direct sources =>
      obtain ⟨s, -, hs⟩ := List.exists_of_findSome?_eq_some h
      unfold Statement.sourceFault? at hs
      split at hs
      · cases hs
      · split at hs <;> cases hs
  | selective source objects =>
      rw [Statement.fault?] at h
      split at h
      · cases h
      split at h
      · cases h
      split at h
      · cases h
      obtain ⟨w', hw, he⟩ := Option.map_eq_some_iff.mp h
      obtain rfl : w' = w := RecordError.malformedSymbol.inj he
      have hdot : w'.contains '.' = true := by simpa using List.find?_some hw
      exact ⟨not_blank_of_mem_names (List.mem_of_find?_eq_some hw), List.contains_iff_mem.mp hdot⟩

/-- **Exactly when a line is refused.**  Take a file with the module name `m`.  A line of it is
refused, whatever the index, exactly for the fault of its statement: too many leading dots, a
separator in a source that is recorded, a name with a dot, in this order; and a symbol that is
refused is never empty or blank.  The file itself is refused for the fault of its first import
line that has one. -/
theorem refusal?_run_line {filename : Text} (hm : moduleName filename = .ok m) (x : Index) :
    (∀ line, (x.run (Plan.line filename line)).refusal? = (Statement.ofLine line).fault? m) ∧
      (∀ line w, (x.run (Plan.line filename line)).refusal? = some (.malformedSymbol w) →
        w.all isBlank = false ∧ '.' ∈ w) ∧
      ∀ text, (x.run (Plan.file filename text)).refusal? =
        (Statement.importLines text).findSome? fun l => (Statement.ofLine l).fault? m := by
  have hline (line : Text) : (x.run (Plan.line filename line)).refusal? =
      (Statement.ofLine line).fault? m := (x.refusal?_run _).trans (refusal?_line hm line)
  refine ⟨hline, fun line w h => ?_, fun text => ?_⟩
  · rw [hline] at h
    exact not_blank_of_fault? h
  · rw [x.refusal?_run, Plan.refusal?_file]
    exact congrArg (List.findSome? · _) (funext (refusal?_line hm))

/-- In `app/m.py` a separator comes before a dotted name, a dotted name is refused behind an alias,
and of two faulty modules the first one counts. -/
theorem faultyLines_refused :
    moduleName "app/m.py".toList = .ok "app.m".toList ∧
      let refusal? (line : String) :=
        ((Index.fresh none).run (Plan.line "app/m.py".toList line.toList)).refusal?
      refusal? "from ./v import a.b" = some (.separatorInSource "app./v".toList) ∧
        refusal? "from .v import (a as c, d.e)" = some (.malformedSymbol "d.e".toList) ∧
        refusal? "import os, ...x, b/c" =
          some (.depthExceeded "...x".toList "app.m".toList 3) := by
  have hm : moduleName "app/m.py".toList = .ok "app.m".toList := by decide
  have hline := (refusal?_run_line hm (.fresh none)).1
  refine ⟨hm, (hline _).trans ?_, (hline _).trans ?_, (hline _).trans ?_⟩ <;> decide

end

end ImportXref

import ImportXref.Proofs.Text.Edges
import ImportXref.Statement.Basic

/-!
# Statements — which lines are imports

A line is read up to its first line feed.  That part of it is a selective import if it can be cut
into indentation, `from `, a source of at least one character, ` import ` and objects, and a
direct import if it can be cut into indentation, `import ` and a clause of at least one
character.  A text may have several cuts of the first kind, for ` import ` may stand in it more
than once; the one with the shortest source counts.  No text has cuts of both kinds.

* `selective?_eq_some_iff`, `direct?_eq_some_iff`: each kind of statement by its cuts.
* `IsSelective.not_isDirect`: no line is of both kinds.
* `ofLine_iff_cut`: what every line is, whichever kind is tried first.
-/

namespace ImportXref.Statement

variable {line u o c source objects clause rest : Text}

/-! ### Cuts -/

/-- Behind spaces and tabs, the text is `rest`. -/
def Indented (h rest : Text) : Prop :=
  ∃ w : Text, (∀ x ∈ w, x = ' ' ∨ x = '\t') ∧ h = w ++ rest

/-- The text is a selective import from `u`, with all of what follows ` import ` as objects. -/
structure IsSelective (h u o : Text) : Prop where
  source_ne_nil : u ≠ []
  indented : Indented h (fromWord ++ (u ++ (' ' :: importWord ++ o)))

/-- The text is a direct import of the clause `c`. -/
structure IsDirect (h c : Text) : Prop where
  clause_ne_nil : c ≠ []
  indented : Indented h (importWord ++ c)

/-- A statement begins where the indentation of its line ends. -/
theorem indented_iff {x : Char} (hx : rest.head? = some x) (hspace : x ≠ ' ') (htab : x ≠ '\t') :
    Indented (line.before '\n') rest ↔ body line = rest := by
  have hclass : (fun x => x == ' ' || x == '\t') x = false := by simp [hspace, htab]
  refine Iff.trans ?_ (Text.exists_append_iff_dropWhile hx hclass)
  simp only [Indented, Bool.or_eq_true, beq_iff_eq]

/-- A selective import, read off the line without its blanks in front. -/
theorem isSelective_iff : IsSelective (line.before '\n') u o ↔
    u ≠ [] ∧ body line = fromWord ++ (u ++ (' ' :: importWord ++ o)) := by
  rw [← indented_iff (x := 'f') rfl (by decide) (by decide)]
  exact ⟨fun h => ⟨h.source_ne_nil, h.indented⟩, fun h => ⟨h.1, h.2⟩⟩

/-- A direct import, read off the line without its blanks in front. -/
theorem isDirect_iff : IsDirect (line.before '\n') c ↔ c ≠ [] ∧ body line = importWord ++ c := by
  rw [← indented_iff (x := 'i') rfl (by decide) (by decide)]
  exact ⟨fun h => ⟨h.clause_ne_nil, h.indented⟩, fun h => ⟨h.1, h.2⟩⟩

/-- The words at the front of the two kinds begin with different characters. -/
theorem IsSelective.not_isDirect (h : IsSelective (line.before '\n') u o) :
    ¬ IsDirect (line.before '\n') c := by
  intro hdirect
  obtain ⟨-, hfrom⟩ := isSelective_iff.mp h
  obtain ⟨-, himport⟩ := isDirect_iff.mp hdirect
  have hchar : 'f' = 'i' := (List.cons_eq_cons.mp (hfrom.symm.trans himport)).1
  exact absurd hchar (by decide)

/-! ### Selective imports -/

/-- Behind `from ` and the first character of the source, any ` import ` may end the source. -/
theorem isSelective_iff_of_body {x : Char} (hbody : body line = fromWord ++ x :: rest) :
    IsSelective (line.before '\n') u o ↔
      ∃ v, u = x :: v ∧ rest = v ++ ' ' :: importWord ++ o := by
  rw [isSelective_iff, hbody, List.append_right_inj]
  constructor
  · rintro ⟨hne, hrest⟩
    obtain ⟨y, v, rfl⟩ := List.exists_cons_of_ne_nil hne
    obtain ⟨rfl, rfl⟩ := List.cons_eq_cons.mp hrest
    exact ⟨v, rfl, (List.append_assoc ..).symm⟩
  · rintro ⟨v, rfl, rfl⟩
    exact ⟨List.cons_ne_nil x v, congrArg (x :: ·) (List.append_assoc ..)⟩

/-- A line without anything behind `from ` is no selective import. -/
theorem exists_body_of_isSelective (h : IsSelective (line.before '\n') u o) :
    ∃ x rest, Text.dropStart? fromWord (body line) = some (x :: rest) := by
  obtain ⟨hne, hbody⟩ := isSelective_iff.mp h
  obtain ⟨x, v, rfl⟩ := List.exists_cons_of_ne_nil hne
  exact ⟨x, v ++ (' ' :: importWord ++ o), Text.dropStart?_eq_some_iff.mpr hbody⟩

theorem selective?_of_body {x : Char}
    (h : Text.dropStart? fromWord (body line) = some (x :: rest)) : selective? line =
      (Text.breakOn? (' ' :: importWord) rest).map fun (v, o) => (Text.trim (x :: v), o) := by
  rw [selective?, h]

/-- **Selective imports**: of all cuts, the one with the shortest source. -/
theorem selective?_eq_some_iff : selective? line = some (source, objects) ↔
    ∃ u, IsSelective (line.before '\n') u objects ∧
      (∀ u' o', IsSelective (line.before '\n') u' o' → u.length ≤ u'.length) ∧
      source = Text.trim u := by
  constructor
  · intro h
    obtain ⟨x, rest, hdrop⟩ : ∃ x rest,
        Text.dropStart? fromWord (body line) = some (x :: rest) := by
      unfold selective? at h
      split at h
      · next x rest hdrop => exact ⟨x, rest, hdrop⟩
      · cases h
    rw [selective?_of_body hdrop] at h
    obtain ⟨⟨v, o⟩, hbreak, he⟩ := Option.map_eq_some_iff.mp h
    cases he
    obtain ⟨hrest, hshortest⟩ := Text.breakOn?_eq_some_iff.mp hbreak
    have hcut {u o : Text} := isSelective_iff_of_body (u := u) (o := o)
      (Text.dropStart?_eq_some_iff.mp hdrop)
    refine ⟨x :: v, hcut.mpr ⟨v, rfl, hrest⟩, fun u' o' h' => ?_, rfl⟩
    obtain ⟨v', rfl, hrest'⟩ := hcut.mp h'
    exact Nat.succ_le_succ (hshortest v' o' hrest')
  · rintro ⟨u, hu, hshortest, rfl⟩
    obtain ⟨x, rest, hdrop⟩ := exists_body_of_isSelective hu
    have hcut {u o : Text} := isSelective_iff_of_body (u := u) (o := o)
      (Text.dropStart?_eq_some_iff.mp hdrop)
    obtain ⟨v, rfl, hrest⟩ := hcut.mp hu
    have hbreak : Text.breakOn? (' ' :: importWord) rest = some (v, objects) :=
      Text.breakOn?_eq_some_iff.mpr ⟨hrest, fun a b hab =>
        Nat.le_of_succ_le_succ (hshortest _ b (hcut.mpr ⟨a, rfl, hab⟩))⟩
    rw [selective?_of_body hdrop, hbreak]
    rfl

/-- A line that has a cut is a selective import. -/
theorem selective?_ne_none (h : IsSelective (line.before '\n') u o) : selective? line ≠ none := by
  obtain ⟨x, rest, hdrop⟩ := exists_body_of_isSelective h
  obtain ⟨v, -, hrest⟩ := (isSelective_iff_of_body (Text.dropStart?_eq_some_iff.mp hdrop)).mp h
  have hfound := Text.mentions_append (' ' :: importWord) v o
  rw [← hrest] at hfound
  rw [selective?_of_body hdrop]
  exact fun hnone => Option.isSome_iff_ne_none.mp hfound (Option.map_eq_none_iff.mp hnone)

/-- The reader gives up only where no cut is a selective import. -/
theorem selective?_eq_none_iff :
    selective? line = none ↔ ∀ u o, ¬ IsSelective (line.before '\n') u o := by
  refine ⟨fun h u o hu => selective?_ne_none hu h, fun h => ?_⟩
  cases hs : selective? line with
  | none => rfl
  | some cut =>
      obtain ⟨u, hu, -⟩ := selective?_eq_some_iff.mp hs
      exact absurd hu (h u cut.2)

/-! ### Direct imports -/

/-- **Direct imports**: all that follows the word is the clause. -/
theorem direct?_eq_some_iff :
    direct? line = some clause ↔ IsDirect (line.before '\n') clause := by
  rw [isDirect_iff, ← Text.dropStart?_eq_some_iff, direct?]
  cases Text.dropStart? importWord (body line) with
  | none => simp
  | some rest =>
      cases rest with
      | nil => simp [eq_comm]
      | cons x rest =>
          refine ⟨fun h => ⟨?_, h⟩, fun h => h.2⟩
          exact Option.some.inj h ▸ List.cons_ne_nil x rest

/-- The reader gives up only where no cut is a direct import. -/
theorem direct?_eq_none_iff :
    direct? line = none ↔ ∀ c, ¬ IsDirect (line.before '\n') c := by
  simp only [Option.eq_none_iff_forall_ne_some, ne_eq, direct?_eq_some_iff]

/-! ### Lines -/

/-- What the line imports, direct imports tried first. -/
def ofLineDirectFirst (line : Text) : Statement :=
  match direct? line with
  | some clause => direct (Clause.names clause)
  | none =>
    match selective? line with
    | some (source, objects) => selective source objects
    | none => other

/-- No line is both, so either kind may be tried first. -/
theorem ofLineDirectFirst_eq (line : Text) : ofLineDirectFirst line = ofLine line := by
  unfold ofLineDirectFirst ofLine
  cases hs : selective? line with
  | none => rfl
  | some cut =>
      obtain ⟨u, hu, -⟩ := selective?_eq_some_iff.mp hs
      rw [direct?_eq_none_iff.mpr fun c => hu.not_isDirect]

theorem ofLine_eq_selective_iff :
    ofLine line = selective source objects ↔ selective? line = some (source, objects) := by
  unfold ofLine
  cases selective? line with
  | some cut => simp [Prod.ext_iff]
  | none => cases direct? line <;> simp

theorem ofLine_eq_direct_iff {sources : List Text} : ofLine line = direct sources ↔
    ∃ c, direct? line = some c ∧ sources = Clause.names c := by
  rw [← ofLineDirectFirst_eq, ofLineDirectFirst]
  cases direct? line with
  | some clause => simp [eq_comm]
  | none => cases selective? line <;> simp

theorem ofLine_eq_other_iff :
    ofLine line = other ↔ selective? line = none ∧ direct? line = none := by
  unfold ofLine
  cases selective? line with
  | some cut => simp
  | none => cases direct? line <;> simp

/-- **What a line imports.**  The part of a line up to its first line feed is a selective import
exactly if it has a cut of that kind, and then its source is the shortest one without its blanks;
it is a direct import exactly if it has a cut of that kind, and then its modules are the names
in the clause; any other line is no import.  No line has cuts of both kinds, so it does not matter
which kind is tried first. -/
theorem ofLine_iff_cut (line : Text) :
    let h := line.before '\n'
    (∀ source objects, ofLine line = selective source objects ↔
      ∃ u, IsSelective h u objects ∧ (∀ u' o', IsSelective h u' o' → u.length ≤ u'.length) ∧
        source = Text.trim u) ∧
    ((∃ source objects, ofLine line = selective source objects) ↔ ∃ u o, IsSelective h u o) ∧
    (∀ sources, ofLine line = direct sources ↔ ∃ c, IsDirect h c ∧ sources = Clause.names c) ∧
    (ofLine line = other ↔ (∀ u o, ¬ IsSelective h u o) ∧ ∀ c, ¬ IsDirect h c) ∧
    (¬ ∃ u o c, IsSelective h u o ∧ IsDirect h c) ∧
    ofLineDirectFirst line = ofLine line := by
  refine ⟨fun source objects => ofLine_eq_selective_iff.trans selective?_eq_some_iff, ?_,
    fun sources => ?_, ?_, ?_, ofLineDirectFirst_eq line⟩
  · constructor
    · rintro ⟨source, objects, h⟩
      obtain ⟨u, hu, -⟩ := selective?_eq_some_iff.mp (ofLine_eq_selective_iff.mp h)
      exact ⟨u, objects, hu⟩
    · rintro ⟨u, o, hu⟩
      obtain ⟨⟨source, objects⟩, hs⟩ := Option.ne_none_iff_exists'.mp (selective?_ne_none hu)
      exact ⟨source, objects, ofLine_eq_selective_iff.mpr hs⟩
  · simp only [ofLine_eq_direct_iff, direct?_eq_some_iff]
  · rw [ofLine_eq_other_iff, selective?_eq_none_iff, direct?_eq_none_iff]
  · rintro ⟨u, o, c, hu, hc⟩
    exact hu.not_isDirect hc

/-- The word itself may be the source. -/
example : ofLine "from  import  import x\nimport y".toList =
    selective "import".toList "x".toList := by decide

end ImportXref.Statement

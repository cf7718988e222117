import ImportXref.Proofs.Statement.Names
import Mathlib.Data.List.Forall2
import Mathlib.Data.List.ReduceOption

/-!
# Clauses — the names that any text gives

Whatever stands between two commas, at most one name is read off it, and that name is clean: it is
not empty, it has no blank at its edges, no comma and no alias in it.  In front of it only blanks
and opening parentheses are left out, behind it an alias and all that follows, or blanks, closing
parentheses and backslashes.

* `between_bare`: what making a piece bare leaves out.
* `startsAlias_iff`, `exists_alias_of_beforeAlias?`: a name is cut where an alias begins.
* `not_hasAlias_cut`: no alias is left before the first cut, by induction on the text.
* `isNameIn_pieceName`, `only_surroundings`: the name in a piece, and a piece without one.
* `names_exact`: the names in a clause.
-/

namespace ImportXref.Clause

open Text (Between between_dropWhile between_dropEndWhile between_trim)

/-- White space, the word `as` and white space stand at the front of the text. -/
def BeginsAlias (t : Text) : Prop :=
  ∃ w b v, w ≠ [] ∧ (∀ c ∈ w, isBlank c = true) ∧ isBlank b = true ∧ t = w ++ 'a' :: 's' :: b :: v

/-- The word `as` stands in the text between white space. -/
def HasAlias (t : Text) : Prop :=
  ∃ b b', isBlank b = true ∧ isBlank b' = true ∧ [b, 'a', 's', b'] <:+: t

/-- A character that may stand in front of a name without being of it. -/
def isOpening (c : Char) : Bool :=
  isBlank c || c == '('

/-- A character that may stand behind a name without being of it. -/
def isClosing (c : Char) : Bool :=
  isBlank c || c == ')' || c == '\\'

/-- `name` is a clean name that stands in `piece`, with nothing in front of it but what may open
a list, and with an alias behind it or nothing but what may close a list. -/
structure IsNameIn (piece name : Text) : Prop where
  ne_nil : name ≠ []
  head : ∀ c, name.head? = some c → isBlank c = false
  last : ∀ c, name.getLast? = some c → isBlank c = false
  comma_notMem : ',' ∉ name
  unaliased : ¬ HasAlias name
  place : ∃ front back, piece = front ++ (name ++ back) ∧ (∀ c ∈ front, isOpening c = true) ∧
    (BeginsAlias back ∨ ∀ c ∈ back, isClosing c = true)

/-- What a piece gives: a name or nothing. -/
inductive Yields (piece : Text) : Option Text → Prop where
  /-- Nothing, if there is nothing in it but what may open or close a list. -/
  | nothing (h : ∀ c ∈ piece, isOpening c = true ∨ isClosing c = true) : Yields piece none
  /-- A name that stands in it. -/
  | name {name : Text} (h : IsNameIn piece name) : Yields piece (some name)

variable {t u piece : Text} {c : Char}

theorem isOpening_of_isBlank (h : isBlank c = true) : isOpening c = true :=
  Bool.or_eq_true_iff.mpr (.inl h)

theorem isClosing_of_isBlank (h : isBlank c = true) : isClosing c = true :=
  Bool.or_eq_true_iff.mpr (.inl (Bool.or_eq_true_iff.mpr (.inl h)))

/-! ### Bare pieces -/

/-- Making a piece bare leaves out what may open a list and what may close it. -/
theorem between_bare (piece : Text) : Between isOpening isClosing (bare piece) piece := by
  have hblank := fun x => isOpening_of_isBlank (c := x)
  have hblank' := fun x => isClosing_of_isBlank (c := x)
  have hparenthesis : ∀ x, (x == '(') = true → isOpening x = true :=
    fun x hx => Bool.or_eq_true_iff.mpr (.inr hx)
  have hparenthesis' : ∀ x, (x == ')') = true → isClosing x = true :=
    fun x hx => Bool.or_eq_true_iff.mpr (.inl (Bool.or_eq_true_iff.mpr (.inr hx)))
  have hbackslash : ∀ x, (x == '\\') = true → isClosing x = true :=
    fun x hx => Bool.or_eq_true_iff.mpr (.inr hx)
  have hopened := (between_dropWhile hparenthesis isClosing _).trans
    (between_trim hblank hblank' piece)
  have hcontinued := (between_dropEndWhile isOpening hblank' _).trans
    ((between_dropEndWhile isOpening hbackslash _).trans hopened)
  exact (between_trim hblank hblank' _).trans
    ((between_dropEndWhile isOpening hparenthesis' _).trans hcontinued)

/-! ### Aliases -/

/-- The reader finds an alias exactly where one begins. -/
theorem startsAlias_iff : startsAlias t = true ↔ BeginsAlias t := by
  constructor
  · intro h
    unfold startsAlias at h
    split at h
    · cases h
    · next c t =>
      obtain ⟨hc, hrest⟩ := Bool.and_eq_true_iff.mp h
      split at hrest
      · next b v hstart =>
        refine ⟨(c :: t).takeWhile isBlank, b, v, ?_, fun x hx => List.mem_takeWhile_imp hx, hrest,
          ?_⟩
        · rw [List.takeWhile_cons_of_pos hc]
          exact List.cons_ne_nil _ _
        · rw [← hstart]
          exact List.takeWhile_append_dropWhile.symm
      · cases hrest
  · rintro ⟨w, b, v, hne, hw, hb, rfl⟩
    have hstart : Text.trimStart (w ++ 'a' :: 's' :: b :: v) = 'a' :: 's' :: b :: v := by
      rw [Text.trimStart, List.dropWhile_append_of_pos hw]
      rfl
    obtain ⟨c, w, rfl⟩ := List.exists_cons_of_ne_nil hne
    rw [List.cons_append] at hstart ⊢
    rw [startsAlias, hstart, hw c List.mem_cons_self]
    exact hb

theorem BeginsAlias.head (h : BeginsAlias t) : ∃ c, t.head? = some c ∧ isBlank c = true := by
  obtain ⟨w, b, v, hne, hw, -, rfl⟩ := h
  obtain ⟨c, w, rfl⟩ := List.exists_cons_of_ne_nil hne
  exact ⟨c, rfl, hw c List.mem_cons_self⟩

/-- An alias begins with all the white space in front of it. -/
theorem BeginsAlias.blank_append (h : BeginsAlias t) (hu : ∀ c ∈ u, isBlank c = true)
    (v : Text) : BeginsAlias (u ++ (t ++ v)) := by
  obtain ⟨w, b, v', hne, hw, hb, rfl⟩ := h
  exact ⟨u ++ w, b, v' ++ v, List.append_ne_nil_of_right_ne_nil _ hne,
    List.forall_mem_append.mpr ⟨hu, hw⟩, hb, by simp⟩

/-- A piece is cut where an alias begins. -/
theorem exists_alias_of_beforeAlias? (h : beforeAlias? t = some u) :
    ∃ v, t = u ++ v ∧ BeginsAlias v := by
  induction t generalizing u with
  | nil => cases h
  | cons c t ih =>
      rw [beforeAlias?] at h
      split at h
      · next halias =>
        cases h
        exact ⟨c :: t, rfl, startsAlias_iff.mp halias⟩
      split at h
      · cases h
      · obtain ⟨u', hu', rfl⟩ := Option.map_eq_some_iff.mp h
        obtain ⟨v, rfl, hv⟩ := ih hu'
        exact ⟨v, rfl, hv⟩

/-- The text before its first alias, or all of it. -/
def cut (t : Text) : Text :=
  (beforeAlias? t).getD t

/-- What follows the part before the first alias begins with that alias, if there is one. -/
theorem exists_cut_append (t : Text) : ∃ v, t = cut t ++ v ∧ (BeginsAlias v ∨ v = []) := by
  unfold cut
  cases h : beforeAlias? t with
  | none => exact ⟨[], by simp, .inr rfl⟩
  | some u =>
      obtain ⟨v, hv, halias⟩ := exists_alias_of_beforeAlias? h
      exact ⟨v, hv, .inl halias⟩

theorem cut_isPrefix (t : Text) : cut t <+: t := by
  obtain ⟨v, hv, -⟩ := exists_cut_append t
  exact ⟨v, hv.symm⟩

/-- **No alias is left** before the first one. -/
theorem not_hasAlias_cut (hlf : '\n' ∉ t) : ¬ HasAlias (cut t) := by
  induction t with
  | nil => simp [HasAlias, cut, beforeAlias?]
  | cons c t ih =>
      obtain ⟨hc, ht⟩ := not_or.mp (List.mem_cons.not.mp hlf)
      by_cases halias : startsAlias (c :: t) = true
      · simp [HasAlias, cut, beforeAlias?, halias]
      · have hcut : cut (c :: t) = c :: cut t := by
          unfold cut
          rw [beforeAlias?, if_neg halias, if_neg (Ne.symm hc)]
          cases beforeAlias? t <;> rfl
        rw [hcut]
        rintro ⟨b, b', hb, hb', hinfix⟩
        rcases List.infix_cons_iff.mp hinfix with hfront | hrest
        · -- an alias at the front would have been the first one
          obtain ⟨rfl, hword⟩ := List.cons_prefix_cons.mp hfront
          obtain ⟨v, rfl⟩ := hword.trans (cut_isPrefix t)
          exact halias (startsAlias_iff.mpr ⟨[b], b', v, List.cons_ne_nil _ _, by simpa using hb,
            hb', rfl⟩)
        · exact ih ht ⟨b, b', hb, hb', hrest⟩

theorem HasAlias.of_isInfix (h : HasAlias t) (ht : t <:+: u) : HasAlias u := by
  obtain ⟨b, b', hb, hb', hinfix⟩ := h
  exact ⟨b, b', hb, hb', hinfix.trans ht⟩

/-! ### Pieces -/

theorem trim_bare (piece : Text) : Text.trim (bare piece) = bare piece := by
  unfold bare
  exact Text.trim_trim _

/-- A name is what is bare up to the first alias, without blanks at its edges. -/
theorem pieceName_eq (piece : Text) : pieceName piece = Text.trim (cut (bare piece)) := by
  unfold pieceName cut
  cases beforeAlias? (bare piece) with
  | some name => rfl
  | none => rw [Option.getD_none, trim_bare]

/-- From the piece before its alias, only blanks at the edges are left out. -/
theorem between_pieceName (piece : Text) :
    Between isBlank isBlank (pieceName piece) (cut (bare piece)) := by
  rw [pieceName_eq]
  exact between_trim (fun _ => id) (fun _ => id) _

/-- The name in a piece is clean, and all else of the piece is known. -/
theorem isNameIn_pieceName (hcomma : ',' ∉ piece) (hlf : '\n' ∉ piece)
    (hne : pieceName piece ≠ []) : IsNameIn piece (pieceName piece) := by
  obtain ⟨front, back, hpiece, hfront, hback⟩ := between_bare piece
  obtain ⟨rest, hbare, hrest⟩ := exists_cut_append (bare piece)
  obtain ⟨u, v, hcut, hu, hv⟩ := between_pieceName piece
  have hsplit : piece = (front ++ u) ++ (pieceName piece ++ (v ++ (rest ++ back))) := by
    rw [hbare, hcut] at hpiece
    simpa using hpiece
  have hlfbare : '\n' ∉ bare piece := fun hmem =>
    hlf (hpiece ▸ List.mem_append_right _ (List.mem_append_left _ hmem))
  have hinfix : pieceName piece <:+: cut (bare piece) := ⟨u, v, by simpa using hcut.symm⟩
  -- the blanks between the name and what follows it go with the alias, if there is one
  have hbehind : BeginsAlias (v ++ (rest ++ back)) ∨
      ∀ c ∈ v ++ (rest ++ back), isClosing c = true := by
    rcases hrest with halias | rfl
    · exact .inl (halias.blank_append hv back)
    · exact .inr (List.forall_mem_append.mpr
        ⟨fun c hc => isClosing_of_isBlank (hv c hc), hback⟩)
  have hahead : ∀ c ∈ front ++ u, isOpening c = true :=
    List.forall_mem_append.mpr ⟨hfront, fun c hc => isOpening_of_isBlank (hu c hc)⟩
  exact
    { ne_nil := hne
      head := fun c hc => Text.of_head?_trim (pieceName_eq piece ▸ hc)
      last := fun c hc => Text.of_getLast?_trim (pieceName_eq piece ▸ hc)
      comma_notMem := fun hmem =>
        hcomma (hsplit ▸ List.mem_append_right _ (List.mem_append_left _ hmem))
      unaliased := fun halias => not_hasAlias_cut hlfbare (halias.of_isInfix hinfix)
      place := ⟨_, _, hsplit, hahead, hbehind⟩ }

/-- A piece without a name has nothing bare in it. -/
theorem bare_eq_nil_of_pieceName (h : pieceName piece = []) : bare piece = [] := by
  obtain ⟨rest, hbare, hrest⟩ := exists_cut_append (bare piece)
  obtain ⟨u, v, hcut, hu, hv⟩ := between_pieceName piece
  rw [h, List.nil_append] at hcut
  have hblank : ∀ c ∈ cut (bare piece), isBlank c = true :=
    hcut ▸ List.forall_mem_append.mpr ⟨hu, hv⟩
  -- the first character of what is bare is not blank, so it is neither cut off nor an alias
  have hhead (c : Char) (hc : (bare piece).head? = some c) : isBlank c = false :=
    Text.of_head?_trim hc
  cases hcons : cut (bare piece) with
  | cons c t =>
      rw [hcons] at hbare hblank
      have hc := hhead c (by rw [hbare]; rfl)
      rw [hblank c List.mem_cons_self] at hc
      cases hc
  | nil =>
      rw [hcons, List.nil_append] at hbare
      rcases hrest with halias | hnil
      · obtain ⟨c, hc, hb⟩ := halias.head
        rw [hhead c (hbare ▸ hc)] at hb
        cases hb
      · rw [hbare, hnil]

/-- A piece without a name holds nothing but what may open or close a list. -/
theorem only_surroundings (h : pieceName piece = []) :
    ∀ c ∈ piece, isOpening c = true ∨ isClosing c = true := by
  obtain ⟨front, back, hpiece, hfront, hback⟩ := between_bare piece
  rw [bare_eq_nil_of_pieceName h, List.nil_append] at hpiece
  rw [hpiece]
  intro c hc
  rcases List.mem_append.mp hc with hc | hc
  · exact .inl (hfront c hc)
  · exact .inr (hback c hc)

/-! ### Clauses -/

/-- The name in a piece, if there is one. -/
def name? (piece : Text) : Option Text :=
  if pieceName piece = [] then none else some (pieceName piece)

theorem names_eq (clause : Text) :
    names clause = ((clause.splitOn ',').map name?).reduceOption := by
  unfold names
  induction clause.splitOn ',' with
  | nil => rfl
  | cons piece pieces ih =>
      by_cases h : pieceName piece = []
      · rw [List.map_cons, List.map_cons, List.filter_cons_of_neg (by simp [h]), ih, name?,
          if_pos h, List.reduceOption_cons_of_none]
      · rw [List.map_cons, List.map_cons, List.filter_cons_of_pos (by simpa using h), ih, name?,
          if_neg h, List.reduceOption_cons_of_some]

/-- **What a piece of a clause yields**, whatever stands in it but a line feed. -/
theorem yields_name? (hcomma : ',' ∉ piece) (hlf : '\n' ∉ piece) : Yields piece (name? piece) := by
  unfold name?
  split
  · next h => exact .nothing (only_surroundings h)
  · next h => exact .name (isNameIn_pieceName hcomma hlf h)

/-- **The names in a clause.**  A comma divides the names as it divides the text; and of a clause
without a line feed each piece gives at most one name, in order, a clean one that stands in it, and
gives none only if there is nothing to name. -/
theorem names_exact (a b clause : Text) :
    names (a ++ ',' :: b) = names a ++ names b ∧
      ('\n' ∉ clause → ∃ found, List.Forall₂ Yields (clause.splitOn ',') found ∧
        names clause = found.reduceOption) := by
  refine ⟨Written.names_append_comma a b, fun hlf => ?_⟩
  refine ⟨(clause.splitOn ',').map name?, ?_, names_eq clause⟩
  rw [List.forall₂_map_right_iff, List.forall₂_same]
  intro piece hpiece
  have hchars := Text.of_mem_splitOn hpiece
  exact yields_name? (fun h => (hchars ',' h).2 rfl) fun h => hlf (hchars '\n' h).1

/-- A list with a piece that names nothing, several words `as`, and a name that ends in one. -/
def severalWords : Text :=
  "(a as b as c, as, ) , d\tas".toList

/-- Only the first of those words between white space counts, and it goes with all after it. -/
theorem severalWords_named :
    '\n' ∉ severalWords ∧
      names severalWords = ["a".toList, "as".toList, "d\tas".toList] ∧
      ∃ found, List.Forall₂ Yields (severalWords.splitOn ',') found ∧
        names severalWords = found.reduceOption := by
  have hlf : '\n' ∉ severalWords := by decide
  have hgiven : names severalWords = ["a".toList, "as".toList, "d\tas".toList] := by
    decide +kernel
  obtain ⟨-, hnames⟩ := names_exact [] [] severalWords
  exact ⟨hlf, hgiven, hnames hlf⟩

end ImportXref.Clause

import ImportXref.Proofs.Statement.EveryLine
import Mathlib.Data.List.Forall2

/-!
# Statements — where lines end

A line ends at a line feed, with or without a carriage return in front of it, and both ends may
be mixed in one text.  The import lines of a text are its lines, in their order, that have the
word `import` in front of their first `#`, each up to its first `#` or `;`.

* `Text.lineInduction`: a text is a line without an end, or a line with its end and a text.
* `Text.lines_append_lf`: the first line of a text.
* `Text.lines_withReturns`: carriage returns added in front of line feeds change no line.
* `Text.filter_lines_append_lf`: the lines of two texts with a line feed between them are those of
  both, but for an empty one.
* `Statement.importLines_append_lf`: so are the import lines.
* `Statement.importLines_exact`: the import lines of a text, whatever its line ends.
-/

namespace ImportXref

namespace Text

variable {p t a b : Text} {chosen : Nat → Bool}

/-! ### Line by line -/

/-- A text is a line without an end, or a line with its end in front of a text. -/
@[elab_as_elim]
theorem lineInduction {motive : Text → Prop} (last : ∀ t, '\n' ∉ t → motive t)
    (line : ∀ p t, '\n' ∉ p → motive t → motive (p ++ '\n' :: t)) (t : Text) : motive t := by
  by_cases hlf : '\n' ∈ t
  · obtain ⟨p, u, ht, hp⟩ := List.eq_append_cons_of_mem hlf
    have hshorter : u.length < t.length := by
      rw [ht, List.length_append, List.length_cons]
      omega
    rw [ht]
    exact line p u hp (lineInduction last line u)
  · exact last t hlf
termination_by t.length

/-- What stands in front of the first line feed is the first line. -/
theorem lines_append_lf (hp : '\n' ∉ p) (t : Text) :
    lines (p ++ '\n' :: t) = dropReturn p :: lines t := by
  obtain ⟨q, ps, hpieces⟩ := List.exists_cons_of_ne_nil (List.splitOn_ne_nil '\n' t)
  rw [lines, lines, List.splitOn_append_cons_self, List.splitOn_eq_singleton hp, hpieces]
  rfl

theorem dropReturn_concat (p : Text) : dropReturn (p ++ ['\r']) = p := by
  rw [dropReturn, dropEnd?_eq_some_iff.mpr rfl, Option.getD_some]

/-- A line without a carriage return at its end stays as it is. -/
theorem dropReturn_of_getLast? (h : p.getLast? ≠ some '\r') : dropReturn p = p := by
  cases hdrop : dropEnd? ['\r'] p with
  | none => rw [dropReturn, hdrop, Option.getD_none]
  | some r =>
      rw [dropEnd?_eq_some_iff.mp hdrop, List.getLast?_concat] at h
      exact absurd rfl h

theorem dropReturn_of_notMem (h : '\r' ∉ p) : dropReturn p = p :=
  dropReturn_of_getLast? fun hlast => h (List.mem_of_getLast? hlast)

/-! ### Carriage returns -/

/-- The text with a carriage return in front of every chosen line feed, the line feeds counted
from 0 on. -/
def withReturns (chosen : Nat → Bool) : Text → Text
  | [] => []
  | c :: t =>
    if c = '\n' then
      (if chosen 0 then ['\r'] else []) ++ '\n' :: withReturns (fun i => chosen (i + 1)) t
    else c :: withReturns chosen t

/-- Carriage returns come only before line feeds. -/
theorem withReturns_append (hp : '\n' ∉ p) (t : Text) :
    withReturns chosen (p ++ t) = p ++ withReturns chosen t := by
  induction p with
  | nil => rfl
  | cons c p ih =>
      have hc : c ≠ '\n' := (List.ne_of_not_mem_cons hp).symm
      rw [List.cons_append, withReturns, if_neg hc, ih (List.not_mem_of_not_mem_cons hp),
        List.cons_append]

theorem withReturns_of_notMem (ht : '\n' ∉ t) : withReturns chosen t = t := by
  have happend : withReturns chosen (t ++ []) = t ++ withReturns chosen [] :=
    withReturns_append ht []
  rwa [List.append_nil, withReturns, List.append_nil] at happend

/-- **Line ends do not matter.**  In a text without carriage returns, those that are added in
front of line feeds belong to the line ends. -/
theorem lines_withReturns (ht : '\r' ∉ t) (chosen : Nat → Bool) :
    lines (withReturns chosen t) = lines t := by
  induction t using lineInduction generalizing chosen with
  | last t hlf => rw [withReturns_of_notMem hlf]
  | line p t hp ih =>
      obtain ⟨hpr, htr⟩ := not_or.mp (mt List.mem_append.mpr ht)
      have hrest := ih (List.not_mem_of_not_mem_cons htr) fun i => chosen (i + 1)
      rw [withReturns_append hp, withReturns, if_pos rfl, lines_append_lf hp,
        dropReturn_of_notMem hpr]
      cases chosen 0 with
      | false => rw [if_neg Bool.false_ne_true, List.nil_append, lines_append_lf hp, hrest,
          dropReturn_of_notMem hpr]
      | true =>
          have hpr' : '\n' ∉ p ++ ['\r'] := by simpa using hp
          rw [if_pos rfl, ← List.append_assoc, lines_append_lf hpr', hrest, dropReturn_concat]

/-! ### Two texts -/

/-- The lines of two texts with a line feed between them are the lines of both, up to an empty
one where the first text is empty or ends at a line feed. -/
theorem filter_lines_append_lf {kept : Text → Bool} (hkept : kept [] = false)
    (ha : a.getLast? ≠ some '\r') (b : Text) :
    (lines (a ++ '\n' :: b)).filter kept = (lines a).filter kept ++ (lines b).filter kept := by
  induction a using lineInduction with
  | last a hlf =>
      rw [lines_append_lf hlf, dropReturn_of_getLast? ha]
      by_cases hnil : a = []
      · rw [hnil, List.filter_cons_of_neg (by simp [hkept])]
        rfl
      · rw [lines_eq_singleton hlf hnil, ← List.filter_append, List.singleton_append]
  | line p a hp ih =>
      have ha' : a.getLast? ≠ some '\r' := by
        rintro hlast
        rw [List.getLast?_append, List.getLast?_cons, hlast] at ha
        exact ha rfl
      rw [List.append_assoc, List.cons_append, lines_append_lf hp, lines_append_lf hp,
        List.filter_cons, List.filter_cons, ih ha']
      split
      · rw [List.cons_append]
      · rfl

end Text

namespace Statement

/-! ### The import lines -/

/-- The word `import` and a space stand in the line with no `#` in front of them. -/
def MentionsImport (l : Text) : Prop :=
  ∃ u v, l = u ++ importWord ++ v ∧ '#' ∉ u

instance : DecidablePred MentionsImport := fun _ => decidable_of_iff _ bearsImport_iff

/-- The text `r` is the line `l` up to its first `#` or `;`. -/
structure IsFirstOf (l r : Text) : Prop where
  begins : r <+: l
  lf_notMem : '\n' ∉ r
  hash_notMem : '#' ∉ r
  semicolon_notMem : ';' ∉ r
  stops : r = l ∨ ∃ c rest, (c = '#' ∨ c = ';') ∧ l = r ++ c :: rest

theorem bearingLines_eq (text : Text) :
    bearingLines text = text.lines.filter fun l => MentionsImport l :=
  List.filter_congr fun l _ => by
    have hkept : bearsImport l = true ↔ MentionsImport l := bearsImport_iff
    rw [Bool.eq_iff_iff, hkept, decide_eq_true_iff]

/-- The import lines of two texts with a line feed between them. -/
theorem importLines_append_lf {a : Text} (ha : a.getLast? ≠ some '\r') (b : Text) :
    importLines (a ++ '\n' :: b) = importLines a ++ importLines b := by
  have hnil : bearsImport [] = false := rfl
  rw [importLines, bearingLines, Text.filter_lines_append_lf hnil ha, List.map_append]
  rfl

/-- A text is cut at a character that it has. -/
theorem before_stops (c : Char) (t : Text) :
    t.before c = t ∨ ∃ rest, t = t.before c ++ c :: rest := by
  by_cases hc : c ∈ t
  · obtain ⟨u, v, rfl, hu⟩ := List.eq_append_cons_of_mem hc
    exact .inr ⟨v, by rw [Text.before_append_cons hu]⟩
  · exact .inl (Text.before_of_notMem hc)

/-- **The first statement of a line** is what stands before its first semicolon or comment. -/
theorem isFirstOf_first {l : Text} (hl : '\n' ∉ l) : IsFirstOf l (first l) := by
  have hcomment : uncommented l <+: l := Text.before_isPrefix '#' l
  have hfirst : first l <+: uncommented l := Text.before_isPrefix ';' (uncommented l)
  refine ⟨hfirst.trans hcomment, fun h => hl ((hfirst.trans hcomment).subset h),
    fun h => Text.notMem_before '#' l (hfirst.subset h), Text.notMem_before ';' _, ?_⟩
  obtain hsame | ⟨rest, hrest⟩ := before_stops ';' (uncommented l)
  · rw [first, hsame]
    obtain hl | ⟨rest, hrest⟩ := before_stops '#' l
    · exact .inl hl
    · exact .inr ⟨'#', rest, .inl rfl, hrest⟩
  · obtain ⟨comment, hl⟩ := hcomment
    refine .inr ⟨';', rest ++ comment, .inr rfl, ?_⟩
    rw [first, ← List.cons_append, ← List.append_assoc, ← hrest, hl]

/-- **The import lines of a text.**  In a text without carriage returns any of its line feeds may
get one in front, and the import lines stay the same.  Whatever the text, its import lines are
those lines of it, in their order, that have the word `import` in front of their first `#`, each
one up to its first `#` or `;`. -/
theorem importLines_exact (text : Text) :
    ('\r' ∉ text → ∀ chosen, importLines (text.withReturns chosen) = importLines text) ∧
      List.Forall₂ IsFirstOf (text.lines.filter fun l => MentionsImport l) (importLines text) := by
  constructor
  · intro hr chosen
    rw [importLines, bearingLines, Text.lines_withReturns hr chosen]
    rfl
  · rw [importLines, bearingLines_eq, List.forall₂_map_right_iff, List.forall₂_same]
    intro l hl
    exact isFirstOf_first (Text.lf_notMem_of_mem_lines (List.mem_of_mem_filter hl))

/-- Of three line feeds, the second one gets a carriage return in front. -/
theorem mixedEnds_read :
    let text : Text := "import a\nfrom b import c # d\nx = 1\nimport e; import f".toList
    '\r' ∉ text ∧
      text.withReturns (· == 1) =
        "import a\nfrom b import c # d\r\nx = 1\nimport e; import f".toList ∧
      importLines (text.withReturns (· == 1)) = importLines text ∧
      importLines text =
        ["import a".toList, "from b import c ".toList, "import e".toList] := by
  intro text
  have hr : '\r' ∉ text := by decide
  exact ⟨hr, by decide, (importLines_exact text).1 hr _, by decide⟩

end Statement

end ImportXref

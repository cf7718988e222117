import ImportXref.Text.Basic

/-!
# Lines — what stands between line feeds

A line ends at a line feed; a carriage return just before that line feed belongs to the line end.
The text after the last line feed is a line of its own unless it is empty, and there a carriage
return is kept.

* `exists_piece_of_mem_linesOfPieces`: every line is what stands between two line feeds, up to
  the carriage return of its line end.
-/

namespace ImportXref.Text

/-- The line without a carriage return at its end. -/
def dropReturn (l : Text) : Text :=
  (dropEnd? ['\r'] l).getD l

/-- The lines, given the pieces between line feeds. -/
def linesOfPieces : List Text → List Text
  | [] => []
  | [p] => if p = [] then [] else [p]
  | p :: q :: ps => dropReturn p :: linesOfPieces (q :: ps)

/-- The lines of a text. -/
def lines (t : Text) : List Text :=
  linesOfPieces (t.splitOn '\n')

theorem mem_of_mem_dropReturn {c : Char} {l : Text} (h : c ∈ dropReturn l) : c ∈ l := by
  unfold dropReturn at h
  cases hd : dropEnd? ['\r'] l with
  | none => simpa [hd] using h
  | some r =>
    rw [dropEnd?_eq_some_iff.mp hd]
    exact List.mem_append_left _ (by simpa [hd] using h)

/-- Every line is a piece, up to the carriage return of its line end. -/
theorem exists_piece_of_mem_linesOfPieces {l : Text} {ps : List Text}
    (h : l ∈ linesOfPieces ps) : ∃ p ∈ ps, l = p ∨ l = dropReturn p := by
  fun_induction linesOfPieces ps with
  | case1 => simp at h
  | case2 => simp at h
  | case3 p hp => exact ⟨p, by simp, Or.inl (by simpa using h)⟩
  | case4 p q ps ih =>
    rcases List.mem_cons.mp h with rfl | h
    · exact ⟨p, by simp, Or.inr rfl⟩
    · obtain ⟨p', hm, he⟩ := ih h
      exact ⟨p', List.mem_cons_of_mem _ hm, he⟩

end ImportXref.Text

import ImportXref.Text.Blank
import ImportXref.Text.Lines
import Mathlib.Data.List.TakeWhile

/-!
# Text — trimming and cutting what was put together

A text put together from parts is cut into those parts again.

* `dropWhile_append_of_head?`, `dropEndWhile_append_of_getLast?`: what is dropped at either side
  of a text is dropped up to that text, if its edge stays.
* `trim_append_append`: trimming works on both sides of a text with no blank at its edges.
* `between_trim`, `of_head?_trim`, `of_getLast?_trim`: what trimming leaves out, and what edges it
  leaves.
* `breakOn?_append_self`, `breakOn?_append_of_notMem`: a keyword is found at its first occurrence.
* `breakOn?_eq_some_iff`: the cut around a keyword is the one with the shortest first part.
* `exists_append_iff_dropWhile`: what is left behind the characters of a class.
* `lines_eq_singleton`, `lf_notMem_of_mem_lines`: a text without a line feed is one line, and no
  line contains one.
-/

namespace ImportXref.Text

variable {p q r : Char → Bool} {c d : Char} {s t u v : Text}

/-- A character outside the class of a text's characters stands nowhere in it. -/
theorem notMem_of_forall (h : ∀ x ∈ t, p x = true) (hd : p d = false) : d ∉ t := by
  intro hm
  rw [h d hm] at hd
  cases hd

/-! ### Edges -/

/-- What is dropped at the front of a text is dropped up to a part whose front stays. -/
theorem dropWhile_append_of_head? (hc : t.head? = some c) (h : p c = false) :
    (s ++ t).dropWhile p = s.dropWhile p ++ t := by
  obtain ⟨r, rfl⟩ := List.head?_eq_some_iff.mp hc
  induction s with
  | nil => simp [h]
  | cons x s ih => cases hx : p x <;> simp [hx, ih]

/-- What is left behind the characters of the class, if its first one is not of the class. -/
theorem exists_append_iff_dropWhile (hc : t.head? = some c) (h : p c = false) :
    (∃ w, (∀ x ∈ w, p x = true) ∧ u = w ++ t) ↔ u.dropWhile p = t := by
  constructor
  · rintro ⟨w, hw, rfl⟩
    rw [dropWhile_append_of_head? hc h, List.dropWhile_eq_nil_iff.mpr hw, List.nil_append]
  · intro hu
    refine ⟨u.takeWhile p, fun x hx => List.mem_takeWhile_imp hx, ?_⟩
    rw [← hu, List.takeWhile_append_dropWhile]

/-- What is dropped at the end of a text is dropped up to a part whose end stays. -/
theorem dropEndWhile_append_of_getLast? (hd : t.getLast? = some d) (h : p d = false) :
    dropEndWhile p (t ++ s) = t ++ dropEndWhile p s := by
  have hdrop := dropWhile_append_of_head? (s := s.reverse) (t := t.reverse) (p := p)
    (by rw [List.head?_reverse]; exact hd) h
  rw [dropEndWhile, List.reverse_append, hdrop, List.reverse_append, List.reverse_reverse,
    dropEndWhile]

/-- An end of characters of the class is dropped as a whole. -/
theorem dropEndWhile_append (h : ∀ x ∈ s, p x = true) :
    dropEndWhile p (t ++ s) = dropEndWhile p t := by
  rw [dropEndWhile, List.reverse_append,
    List.dropWhile_append_of_pos fun x hx => h x (List.mem_reverse.mp hx), dropEndWhile]

/-- A text of characters of the class is dropped as a whole. -/
theorem dropEndWhile_of_forall (h : ∀ x ∈ t, p x = true) : dropEndWhile p t = [] := by
  rw [dropEndWhile, List.dropWhile_eq_nil_iff.mpr fun x hx => h x (List.mem_reverse.mp hx),
    List.reverse_nil]

theorem dropEndWhile_of_forall_not (h : ∀ x ∈ t, p x = false) : dropEndWhile p t = t := by
  cases ht : t.getLast? with
  | none => rw [List.getLast?_eq_none_iff.mp ht]; rfl
  | some d =>
      have hd := dropEndWhile_append_of_getLast? (s := []) ht (h d (List.mem_of_getLast? ht))
      rwa [List.append_nil, show dropEndWhile p [] = [] from rfl, List.append_nil] at hd

theorem trimStart_of_blank (h : ∀ x ∈ t, isBlank x = true) : trimStart t = [] :=
  List.dropWhile_eq_nil_iff.mpr h

theorem trimEnd_of_blank (h : ∀ x ∈ t, isBlank x = true) : trimEnd t = [] :=
  dropEndWhile_of_forall h

theorem trim_of_blank (h : ∀ x ∈ t, isBlank x = true) : trim t = [] := by
  rw [trim, trimStart_of_blank h]
  rfl

/-- Trimming works on both sides of a text with no blank at its edges. -/
theorem trim_append_append (hc : t.head? = some c) (hcb : isBlank c = false)
    (hd : t.getLast? = some d) (hdb : isBlank d = false) :
    trim (u ++ (t ++ v)) = trimStart u ++ (t ++ trimEnd v) := by
  have hstart : trimStart (u ++ (t ++ v)) = trimStart u ++ (t ++ v) :=
    dropWhile_append_of_head? (by rw [List.head?_append, hc]; rfl) hcb
  have hlast : (trimStart u ++ t).getLast? = some d := by rw [List.getLast?_append, hd]; rfl
  rw [trim, hstart, ← List.append_assoc, trimEnd, dropEndWhile_append_of_getLast? hlast hdb,
    List.append_assoc, trimEnd]

/-! ### What is left when edges are dropped -/

/-- What is left begins with no character of the class. -/
theorem of_head?_dropWhile (h : (t.dropWhile p).head? = some c) : p c = false := by
  have hhead := List.head?_dropWhile_not p t
  rwa [h] at hhead

theorem of_getLast?_dropEndWhile (h : (dropEndWhile p t).getLast? = some c) : p c = false := by
  rw [dropEndWhile, List.getLast?_reverse] at h
  exact of_head?_dropWhile h

/-- `s` is what is left of `t` without characters of the class `p` in front of it and of the
class `q` behind it. -/
def Between (p q : Char → Bool) (s t : Text) : Prop :=
  ∃ u v, t = u ++ (s ++ v) ∧ (∀ x ∈ u, p x = true) ∧ ∀ x ∈ v, q x = true

/-- What is left of what is left. -/
theorem Between.trans (hs : Between p q s t) (ht : Between p q t u) : Between p q s u := by
  obtain ⟨v, w, rfl, hv, hw⟩ := hs
  obtain ⟨v', w', rfl, hv', hw'⟩ := ht
  exact ⟨v' ++ v, w ++ w', by simp only [List.append_assoc],
    List.forall_mem_append.mpr ⟨hv', hv⟩, List.forall_mem_append.mpr ⟨hw, hw'⟩⟩

theorem between_dropWhile (h : ∀ x, r x = true → p x = true) (q : Char → Bool) (t : Text) :
    Between p q (t.dropWhile r) t :=
  ⟨t.takeWhile r, [], by rw [List.append_nil, List.takeWhile_append_dropWhile],
    fun x hx => h x (List.mem_takeWhile_imp hx), by simp⟩

theorem between_dropEndWhile (p : Char → Bool) (h : ∀ x, r x = true → q x = true) (t : Text) :
    Between p q (dropEndWhile r t) t := by
  refine ⟨[], (t.reverse.takeWhile r).reverse, ?_, by simp, fun x hx => ?_⟩
  · rw [dropEndWhile, List.nil_append, ← List.reverse_append, List.takeWhile_append_dropWhile,
      List.reverse_reverse]
  · exact h x (List.mem_takeWhile_imp (List.mem_reverse.mp hx))

/-- Trimming leaves out what is blank on both sides. -/
theorem between_trim (hp : ∀ x, isBlank x = true → p x = true)
    (hq : ∀ x, isBlank x = true → q x = true) (t : Text) : Between p q (trim t) t :=
  (between_dropEndWhile p hq _).trans (between_dropWhile hp q t)

/-- A trimmed text does not begin with a blank. -/
theorem of_head?_trim (h : (trim t).head? = some c) : isBlank c = false := by
  obtain ⟨u, v, ht, hu, -⟩ := between_dropEndWhile (r := isBlank) (q := isBlank)
    (fun _ => false) (fun _ hx => hx) (trimStart t)
  have hnil : u = [] := List.eq_nil_iff_forall_not_mem.mpr fun x hx => Bool.false_ne_true (hu x hx)
  refine of_head?_dropWhile (p := isBlank) (t := t) ?_
  rw [← trimStart, ht, hnil, List.nil_append, List.head?_append, ← trimEnd, ← trim, h]
  rfl

theorem of_getLast?_trim (h : (trim t).getLast? = some c) : isBlank c = false :=
  of_getLast?_dropEndWhile h

/-- A trimmed text is not trimmed any further. -/
theorem trim_trim (t : Text) : trim (trim t) = trim t := by
  by_cases h : trim t = []
  · rw [h]
    rfl
  · have hhead := List.head?_eq_some_head h
    have hlast := List.getLast?_eq_some_getLast h
    have htrim := trim_append_append (u := []) (v := []) hhead (of_head?_trim hhead) hlast
      (of_getLast?_trim hlast)
    simpa [trimStart, trimEnd, dropEndWhile] using htrim

/-- What trimming leaves is not blank. -/
theorem all_isBlank_trim (h : trim t ≠ []) : (trim t).all isBlank = false := by
  have hlast := List.getLast?_eq_some_getLast h
  refine List.all_eq_false.mpr ⟨_, List.mem_of_getLast? hlast, ?_⟩
  rw [of_getLast?_trim hlast]
  exact Bool.false_ne_true

/-! ### Cuts at a character -/

theorem before_of_notMem (h : c ∉ t) : before c t = t := by
  rw [before, List.takeWhile_eq_self_iff]
  intro x hx
  simp only [bne_iff_ne]
  exact fun he => h (he ▸ hx)

/-- A text is cut before the first of a character. -/
theorem before_append_cons (h : c ∉ t) : before c (t ++ c :: v) = t := by
  rw [before, List.takeWhile_append_of_pos fun x hx => ?_]
  · simp
  · simp only [bne_iff_ne]
    exact fun he => h (he ▸ hx)

/-- A text without a line feed is one line. -/
theorem lines_eq_singleton (h : '\n' ∉ t) (ht : t ≠ []) : lines t = [t] := by
  rw [lines, List.splitOn_eq_singleton h, linesOfPieces, if_neg ht]

/-- The pieces of a text hold its characters other than the one it is cut at. -/
theorem of_mem_splitOn {α : Type} [BEq α] [LawfulBEq α] {c : α} {s t : List α}
    (h : s ∈ t.splitOn c) : ∀ x ∈ s, x ∈ t ∧ x ≠ c := by
  induction t generalizing s with
  | nil =>
      obtain rfl : s = [] := by simpa using h
      simp
  | cons y t ih =>
      rw [List.splitOn_cons_eq_if_modifyHead] at h
      have later (hs : s ∈ t.splitOn c) : ∀ x ∈ s, x ∈ y :: t ∧ x ≠ c := fun x hx =>
        ⟨List.mem_cons_of_mem _ (ih hs x hx).1, (ih hs x hx).2⟩
      by_cases hy : y = c
      · rw [if_pos (beq_iff_eq.mpr hy)] at h
        rcases List.mem_cons.mp h with rfl | hs
        · simp
        · exact later hs
      · rw [if_neg (by simpa using hy)] at h
        obtain ⟨w, ws, hws⟩ := List.exists_cons_of_ne_nil (List.splitOn_ne_nil c t)
        rw [hws, List.modifyHead_cons] at h
        rcases List.mem_cons.mp h with rfl | hs
        · intro x hx
          rcases List.mem_cons.mp hx with rfl | hx
          · exact ⟨List.mem_cons_self .., hy⟩
          · have hw := ih (hws ▸ List.mem_cons_self ..) x hx
            exact ⟨List.mem_cons_of_mem _ hw.1, hw.2⟩
        · exact later (hws ▸ List.mem_cons_of_mem _ hs)

/-- No line contains a line feed. -/
theorem lf_notMem_of_mem_lines {l : Text} (h : l ∈ lines t) : '\n' ∉ l := by
  obtain ⟨p, hp, hl⟩ := exists_piece_of_mem_linesOfPieces h
  have hpiece : '\n' ∉ p := fun hm => (of_mem_splitOn hp '\n' hm).2 rfl
  rcases hl with rfl | rfl
  · exact hpiece
  · exact fun hm => hpiece (mem_of_mem_dropReturn hm)

/-! ### Keywords -/

theorem dropStart?_append (key t : Text) : dropStart? key (key ++ t) = some t :=
  dropStart?_eq_some_iff.mpr rfl

/-- A keyword that stands in a text is found. -/
theorem mentions_append (key u v : Text) : mentions key (u ++ key ++ v) = true := by
  unfold mentions
  induction u with
  | nil =>
      cases key with
      | nil => cases v <;> rfl
      | cons k key =>
          have hstart := dropStart?_append (k :: key) v
          simp only [List.nil_append, List.cons_append] at hstart ⊢
          simp [breakOn?, hstart]
  | cons c u ih =>
      simp only [List.cons_append, breakOn?]
      split
      · rfl
      · rw [Option.isSome_map]
        exact ih

/-- Where a keyword does not begin, it is looked for behind the next character. -/
theorem breakOn?_cons_of_none {key : Text} (h : dropStart? key (c :: t) = none) :
    breakOn? key (c :: t) = (breakOn? key t).map fun (u, v) => (c :: u, v) := by
  rw [breakOn?, h]

/-- A keyword at the front of a text is found there. -/
theorem breakOn?_append_self (k : Char) (key v : Text) :
    breakOn? (k :: key) (k :: key ++ v) = some ([], v) := by
  have hstart := dropStart?_append (k :: key) v
  rw [List.cons_append] at hstart ⊢
  rw [breakOn?, hstart]

/-- A keyword is found after a text without its first character. -/
theorem breakOn?_append_of_notMem {k : Char} {key : Text} (h : k ∉ u) :
    breakOn? (k :: key) (u ++ t) = (breakOn? (k :: key) t).map fun (r, v) => (u ++ r, v) := by
  induction u with
  | nil => simp
  | cons c u ih =>
      obtain ⟨hc, hu⟩ := not_or.mp (List.mem_cons.not.mp h)
      have hnone : dropStart? (k :: key) (c :: (u ++ t)) = none := by
        rw [dropStart?, if_neg hc]
      rw [List.cons_append, breakOn?_cons_of_none hnone, ih hu, Option.map_map]
      rfl

/-- A keyword is found at its first occurrence. -/
theorem length_le_of_breakOn? {key a b : Text} (h : breakOn? key t = some (u, v))
    (ht : t = a ++ key ++ b) : u.length ≤ a.length := by
  induction t generalizing u a with
  | nil =>
      obtain ⟨r, -, he⟩ := Option.map_eq_some_iff.mp h
      cases he
      exact Nat.zero_le _
  | cons c t ih =>
      cases hd : dropStart? key (c :: t) with
      | some r =>
          rw [breakOn?, hd] at h
          cases h
          exact Nat.zero_le _
      | none =>
          rw [breakOn?_cons_of_none hd] at h
          obtain ⟨⟨u', v'⟩, hbreak, he⟩ := Option.map_eq_some_iff.mp h
          cases he
          cases a with
          | nil =>
              have hstart : dropStart? key (c :: t) = some b := dropStart?_eq_some_iff.mpr ht
              rw [hstart] at hd
              cases hd
          | cons x a => exact Nat.succ_le_succ (ih hbreak (List.cons_eq_cons.mp ht).2)

/-- The cut around a keyword is the one whose first part is the shortest. -/
theorem breakOn?_eq_some_iff {key : Text} : breakOn? key t = some (u, v) ↔
    t = u ++ key ++ v ∧ ∀ a b, t = a ++ key ++ b → u.length ≤ a.length := by
  refine ⟨fun h => ⟨breakOn?_append h, fun a b => length_le_of_breakOn? h⟩, ?_⟩
  rintro ⟨ht, hshortest⟩
  have hfound : (breakOn? key t).isSome = true := ht ▸ mentions_append key u v
  obtain ⟨⟨a, b⟩, hbreak⟩ := Option.isSome_iff_exists.mp hfound
  have hab := breakOn?_append hbreak
  have hlength : a.length = u.length :=
    Nat.le_antisymm (length_le_of_breakOn? hbreak ht) (hshortest a b hab)
  rw [List.append_assoc] at hab ht
  obtain ⟨rfl, hrest⟩ := List.append_inj (hab.symm.trans ht) hlength
  rw [hbreak, List.append_cancel_left hrest]

end ImportXref.Text

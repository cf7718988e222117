import ImportXref.Proofs.Statement.Names
import ImportXref.Statement.Source

/-!
# Statements — reading a written import

A written import is found on its line and read as what it was written from.  The source of a
selective import ends at the first ` import `: none starts in the gaps around the source, because
the word after a space there is not `import`, and none starts in the source, which has no space.

* `breakOn?_source`: the first ` import ` is the one after the source.
* `ofLine_text`: what a written statement is read as, behind any indentation.
* `importLines_text`: a written line holds exactly its statement.
-/

namespace ImportXref.Written

open Statement (importWord fromWord)
open Text (notMem_of_forall breakOn? dropStart?)

variable {c d : Char} {t u v : Text}

/-! ### The end of a source -/

/-- No ` import ` starts before a blank. -/
theorem dropStart?_of_blank (h : isBlank d = true) (t : Text) :
    dropStart? (' ' :: importWord) (c :: d :: t) = none := by
  have hd : 'i' ≠ d := by
    rintro rfl
    exact absurd h (by decide)
  simp [dropStart?, importWord, hd]

theorem breakOn?_blanks (hu : ∀ c ∈ u, isBlank c = true) (o : Text) :
    breakOn? (' ' :: importWord) (u ++ (' ' :: importWord ++ o)) = some (u, o) := by
  induction u with
  | nil => exact Text.breakOn?_append_self ' ' importWord o
  | cons b u ih =>
      have hrest := ih fun c hc => hu c (List.mem_cons_of_mem _ hc)
      have hnone : dropStart? (' ' :: importWord) (b :: (u ++ (' ' :: importWord ++ o))) =
          none := by
        cases u with
        | nil => exact dropStart?_of_blank (by decide) _
        | cons b' u => exact dropStart?_of_blank (hu b' (by simp)) _
      rw [List.cons_append, Text.breakOn?_cons_of_none hnone, hrest]
      rfl

/-- Behind a name and blanks, the word `import` is found at once. -/
theorem breakOn?_chars (ht : ∀ c ∈ t, isNameChar c = true) (hv : ∀ c ∈ v, isBlank c = true)
    (o : Text) :
    breakOn? (' ' :: importWord) (t ++ (v ++ (' ' :: importWord ++ o))) = some (t ++ v, o) := by
  have hspace : ' ' ∉ t := notMem_of_forall ht (by decide)
  rw [Text.breakOn?_append_of_notMem hspace, breakOn?_blanks hv]
  rfl

/-- A name before a blank is the text up to that blank. -/
theorem takeWhile_name (ht : ∀ c ∈ t, isNameChar c = true) (hd : isBlank d = true) (v : Text) :
    (t ++ d :: v).takeWhile (fun c => !isBlank c) = t := by
  rw [List.takeWhile_append_of_pos fun c hc => by rw [isBlank_of_isNameChar (ht c hc)]; rfl]
  simp [hd]

/-- A name before a blank begins with the word `import` and a space only if it is that word. -/
theorem dropStart?_importWord (ht : ∀ c ∈ t, isNameChar c = true)
    (hne : t ≠ ['i', 'm', 'p', 'o', 'r', 't']) (hd : isBlank d = true) (v : Text) :
    dropStart? importWord (t ++ d :: v) = none := by
  cases hs : dropStart? importWord (t ++ d :: v) with
  | none => rfl
  | some r =>
      have hword : t ++ d :: v = ['i', 'm', 'p', 'o', 'r', 't'] ++ ' ' :: r := by
        rw [Text.dropStart?_eq_some_iff.mp hs]
        rfl
      have htake := takeWhile_name ht hd v
      rw [hword, takeWhile_name (List.all_eq_true.mp (by decide)) (by decide)] at htake
      exact absurd htake.symm hne

/-- **The end of a source.**  In a name between blanks other than `import`, before ` import `,
the first ` import ` is the one after it. -/
theorem breakOn?_source (hu : ∀ c ∈ u, isBlank c = true) (ht : ∀ c ∈ t, isNameChar c = true)
    (hne : t ≠ ['i', 'm', 'p', 'o', 'r', 't']) (hv : ∀ c ∈ v, isBlank c = true) (o : Text) :
    breakOn? (' ' :: importWord) (u ++ (t ++ (v ++ (' ' :: importWord ++ o)))) =
      some (u ++ (t ++ v), o) := by
  induction u with
  | nil => exact breakOn?_chars ht hv o
  | cons b u ih =>
      have hrest := ih fun c hc => hu c (List.mem_cons_of_mem _ hc)
      have hnone : dropStart? (' ' :: importWord)
          (b :: (u ++ (t ++ (v ++ (' ' :: importWord ++ o))))) = none := by
        cases u with
        | cons b' u => exact dropStart?_of_blank (hu b' (by simp)) _
        | nil =>
            -- the name follows directly, so it must not be the word itself
            obtain ⟨d, r, hr, hd⟩ : ∃ d r, v ++ (' ' :: importWord ++ o) = d :: r ∧
                isBlank d = true := by
              cases v with
              | nil => exact ⟨' ', _, rfl, by decide⟩
              | cons d v => exact ⟨d, _, rfl, hv d (by simp)⟩
            rw [List.nil_append, hr, dropStart?, dropStart?_importWord ht hne hd, ite_self]
      rw [List.cons_append, Text.breakOn?_cons_of_none hnone, hrest]
      rfl

/-! ### Sources -/

theorem Source.isName (s : Source) : IsName s.text := by
  refine ⟨fun h => ?_, fun c hc => ?_⟩
  · obtain ⟨hdots, hpath⟩ := List.append_eq_nil_iff.mp h
    rcases s.dots_or_path with hd | hp
    · exact hd (by simpa using hdots)
    · exact (isName_dottedName hp).ne_nil hpath
  · rcases List.mem_append.mp hc with hdots | hpath
    · rw [List.eq_of_mem_replicate hdots]
      decide
    · by_cases hp : s.path = []
      · rw [Source.pathText, hp] at hpath
        cases hpath
      · exact (isName_dottedName hp).chars c hpath

/-! ### Characters of a statement -/

/-- A character that a statement may hold. -/
def isStatementChar (c : Char) : Bool :=
  isPieceChar c || c == ','

theorem isStatementChar_of_isPieceChar (h : isPieceChar c = true) : isStatementChar c = true :=
  Bool.or_eq_true_iff.mpr (.inl h)

theorem isStatementChar_of_mem_gap (g : Gap) : ∀ c ∈ g.text, isStatementChar c = true :=
  of_mem_gap (by decide) (by decide) g

/-- A listing has no character that would end its statement. -/
theorem isStatementChar_of_mem_listing {ν : Type} {write : ν → Text}
    (h : ∀ n, IsName (write n)) (l : Listing ν) :
    ∀ c ∈ l.text write, isStatementChar c = true := by
  intro c hc
  rcases List.mem_append.mp hc with hf | hr
  · exact isStatementChar_of_isPieceChar (isPieceChar_of_mem_item h l.first c hf)
  obtain ⟨i, -, hi⟩ := List.mem_flatMap.mp hr
  rcases List.mem_cons.mp hi with rfl | hi
  · decide
  · exact isStatementChar_of_isPieceChar (isPieceChar_of_mem_item h i c hi)

theorem isStatementChar_of_mem_objects (o : Objects) :
    ∀ c ∈ o.text, isStatementChar c = true := by
  obtain ⟨words, comma?, parentheses?⟩ := o
  have hpiece {t : Text} (h : ∀ c ∈ t, isPieceChar c = true) :
      ∀ c ∈ t, isStatementChar c = true := fun c hc => isStatementChar_of_isPieceChar (h c hc)
  intro c hc
  rcases List.mem_append.mp hc with hc | hclosing
  · rcases List.mem_append.mp hc with hc | hcomma
    · rcases List.mem_append.mp hc with hopening | hwords
      · exact hpiece (isPieceChar_of_mem_opening parentheses?) c hopening
      · exact isStatementChar_of_mem_listing Word.isName words c hwords
    · cases comma? with
      | none => cases hcomma
      | some g =>
          rcases List.mem_cons.mp hcomma with rfl | hg
          · decide
          · exact isStatementChar_of_mem_gap g c hg
  · exact hpiece (isPieceChar_of_mem_closing parentheses?) c hclosing

/-- An import has no character that would end its statement. -/
theorem isStatementChar_of_mem_import (s : Import) :
    ∀ c ∈ s.text, isStatementChar c = true := by
  cases s with
  | direct modules =>
      exact List.forall_mem_append.mpr ⟨List.all_eq_true.mp (by decide),
        isStatementChar_of_mem_listing DottedName.isName modules⟩
  | selective before source after objects =>
      have hsource : ∀ c ∈ source.text, isStatementChar c = true := fun c hc =>
        isStatementChar_of_isPieceChar (isPieceChar_of_isNameChar (source.isName.chars c hc))
      have hfrom : ∀ c ∈ fromWord, isStatementChar c = true := List.all_eq_true.mp (by decide)
      have himport : ∀ c ∈ ' ' :: importWord, isStatementChar c = true :=
        List.all_eq_true.mp (by decide)
      simp only [Import.text, List.forall_mem_append]
      exact ⟨hfrom, ⟨⟨⟨isStatementChar_of_mem_gap before, hsource⟩,
        isStatementChar_of_mem_gap after⟩, himport⟩, isStatementChar_of_mem_objects objects⟩

/-! ### Statements -/

/-- What a statement is read as. -/
def Import.meaning : Import → Statement
  | direct modules => .direct (modules.names.map DottedName.text)
  | selective _ source _ objects => .selective source.text objects.text

/-- The indentation of a statement is not part of it. -/
theorem body_text (g : Gap) (s : Import) : Statement.body (g.text ++ s.text) = s.text := by
  have hlf : '\n' ∉ g.text ++ s.text := notMem_of_forall (p := isStatementChar)
    (List.forall_mem_append.mpr ⟨isStatementChar_of_mem_gap g, isStatementChar_of_mem_import s⟩)
    (by decide)
  have hhead : ∃ c, s.text.head? = some c ∧ (c == ' ' || c == '\t') = false := by
    cases s with
    | direct modules => exact ⟨'i', rfl, by decide⟩
    | selective before source after objects => exact ⟨'f', rfl, by decide⟩
  obtain ⟨c, hc, hcb⟩ := hhead
  rw [Statement.body, Text.before_of_notMem hlf, Text.dropWhile_append_of_head? hc hcb,
    List.dropWhile_eq_nil_iff.mpr (List.all_eq_true.mp g.chars), List.nil_append]

/-- **A selective import is read back**, its source and its objects as written. -/
theorem selective?_text (g before after : Gap) (source : Source) (objects : Objects) :
    Statement.selective? (g.text ++ (Import.selective before source after objects).text) =
      some (source.text, objects.text) := by
  have hname := source.isName
  have htrim := hname.solid.trim_between before after
  have hblank := isBlank_of_mem_gap before
  -- the first character after `from ` belongs to the gap or, if that is empty, to the source
  obtain ⟨c, u, hcu, hbreak⟩ : ∃ c u, before.text ++ (source.text ++ after.text) = c :: u ∧
      breakOn? (' ' :: importWord) (u ++ (' ' :: importWord ++ objects.text)) =
        some (u, objects.text) := by
    cases hb : before.text with
    | nil =>
        obtain ⟨c, r, hr⟩ := List.exists_cons_of_ne_nil hname.ne_nil
        refine ⟨c, r ++ after.text, by rw [hr]; rfl, ?_⟩
        rw [List.append_assoc]
        exact breakOn?_chars (fun x hx => hname.chars x (hr ▸ List.mem_cons_of_mem _ hx))
          (isBlank_of_mem_gap after) objects.text
    | cons b r =>
        refine ⟨b, r ++ (source.text ++ after.text), rfl, ?_⟩
        rw [List.append_assoc, List.append_assoc]
        exact breakOn?_source (fun x hx => hblank x (hb ▸ List.mem_cons_of_mem _ hx))
          hname.chars source.ne_import (isBlank_of_mem_gap after) objects.text
  have htext : (Import.selective before source after objects).text =
      fromWord ++ c :: (u ++ (' ' :: importWord ++ objects.text)) := by
    rw [← List.cons_append, ← hcu]
    simp [Import.text]
  rw [Statement.selective?, body_text, htext, Text.dropStart?_append]
  simp only
  rw [hbreak, Option.map_some, ← hcu, htrim]

/-- **A written statement is read as what it means**, behind any indentation. -/
theorem ofLine_text (g : Gap) (s : Import) : Statement.ofLine (g.text ++ s.text) = s.meaning := by
  cases s with
  | selective before source after objects =>
      rw [Statement.ofLine, selective?_text]
      rfl
  | direct modules =>
      have hselective : Statement.selective? (g.text ++ (Import.direct modules).text) = none := by
        rw [Statement.selective?, body_text]
        rfl
      have hne : modules.text DottedName.text ≠ [] := by
        have hname := (DottedName.isName modules.first.name).ne_nil
        simp [Listing.text, Item.text, Item.core, hname]
      have hdirect : Statement.direct? (g.text ++ (Import.direct modules).text) =
          some (modules.text DottedName.text) := by
        rw [Statement.direct?, body_text, Import.text, Text.dropStart?_append]
        split
        · next h => exact absurd (Option.some.inj h) hne
        · rfl
      rw [Statement.ofLine, hselective]
      simp only
      rw [hdirect]
      simp only [names_modules, Import.meaning]

/-! ### Lines -/

/-- The statement of a line behind its indentation. -/
def Line.code (l : Line) : Text :=
  l.indent.text ++ l.statement.text

theorem isStatementChar_of_mem_code (l : Line) : ∀ c ∈ l.code, isStatementChar c = true :=
  List.forall_mem_append.mpr
    ⟨isStatementChar_of_mem_gap l.indent, isStatementChar_of_mem_import l.statement⟩

/-- The word `import` and a space stand in every statement. -/
theorem exists_code_eq (l : Line) : ∃ u v, l.code = u ++ importWord ++ v := by
  obtain ⟨indent, statement, comment?⟩ := l
  cases statement with
  | direct modules =>
      exact ⟨indent.text, modules.text DottedName.text, by simp [Line.code, Import.text]⟩
  | selective before source after objects =>
      exact ⟨indent.text ++ (fromWord ++ (before.text ++ (source.text ++ (after.text ++ [' '])))),
        objects.text, by simp [Line.code, Import.text]⟩

theorem code_ne_nil (l : Line) : l.code ≠ [] := by
  obtain ⟨u, v, h⟩ := exists_code_eq l
  simp [h, importWord]

/-- The comment of a line is no part of its code. -/
theorem uncommented_text (l : Line) : Statement.uncommented l.text = l.code := by
  have hmark : '#' ∉ l.code :=
    notMem_of_forall (isStatementChar_of_mem_code l) (by decide)
  obtain ⟨indent, statement, comment?⟩ := l
  cases comment? with
  | none =>
      have htext : Line.text ⟨indent, statement, none⟩ =
          Line.code ⟨indent, statement, none⟩ := List.append_nil _
      rw [Statement.uncommented, htext, Text.before_of_notMem hmark]
  | some c => exact Text.before_append_cons hmark

/-- A written line is one line. -/
theorem lines_text (l : Line) : Text.lines l.text = [l.text] := by
  have hlf : '\n' ∉ l.code :=
    notMem_of_forall (isStatementChar_of_mem_code l) (by decide)
  have hne := code_ne_nil l
  obtain ⟨indent, statement, comment?⟩ := l
  refine Text.lines_eq_singleton ?_ fun h => hne (List.append_eq_nil_iff.mp h).1
  intro hm
  rcases List.mem_append.mp hm with hcode | hcomment
  · exact hlf hcode
  · cases comment? with
    | none => cases hcomment
    | some c =>
        rcases List.mem_cons.mp hcomment with h | h
        · exact absurd h (by decide)
        · exact c.lf_notMem h

theorem bearingLines_text (l : Line) : Statement.bearingLines l.text = [l.text] := by
  obtain ⟨u, v, h⟩ := exists_code_eq l
  have hbears : Statement.bearsImport l.text = true := by
    rw [Statement.bearsImport, uncommented_text, h]
    exact Text.mentions_append importWord u v
  rw [Statement.bearingLines, lines_text, List.filter_cons_of_pos hbears, List.filter_nil]

/-- A semicolon stands in no statement. -/
theorem semicolon_notMem_code (l : Line) : ';' ∉ l.code :=
  notMem_of_forall (isStatementChar_of_mem_code l) (by decide)

/-- **A written line holds exactly its statement.** -/
theorem importLines_text (l : Line) : Statement.importLines l.text = [l.code] := by
  rw [Statement.importLines, bearingLines_text, List.map_singleton, Statement.first,
    uncommented_text, Text.before_of_notMem (semicolon_notMem_code l)]

/-- Nothing is reported about a written line. -/
theorem importEvents_text (l : Line) : Statement.importEvents l.text = [] := by
  have hevents : Statement.lineEvents l.text = [] := by
    rw [Statement.lineEvents, uncommented_text, if_neg]
    exact fun h => semicolon_notMem_code l (List.contains_iff_mem.mp h)
  rw [Statement.importEvents, bearingLines_text, List.flatMap_singleton, hevents]

end ImportXref.Written

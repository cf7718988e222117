import ImportXref.Report.Page
import ImportXref.Proofs.Report.Entities
import ImportXref.Proofs.Report.Tags
import Mathlib.Data.List.Basic

/-!
# The page — its tags and the texts between them

`Page.tokens` lists the tags of a page in order, each with the text after it, for texts that are
written as they stand.  The page of a table is made of the tokens for the escaped texts.

* `Tokenized`: pieces are written as tokens that can be cut again.  It holds block by block.
* `Page.cut_render`: the page of a table is cut into its tokens.
-/

namespace ImportXref

open Markup

/-! ### Pieces as tokens -/

/-- The pieces are written as the tokens, and the tokens can be cut again. -/
structure Markup.Tokenized (ps : List Piece) (ks : List Token) : Prop where
  written : Markup.render ps = ks.flatMap Token.written
  wellFormed : ∀ k ∈ ks, k.WellFormed

namespace Markup.Tokenized

variable {ps qs : List Piece} {ks ls : List Token}

/-- Blocks one after the other are written as the tokens of both. -/
theorem append (h : Tokenized ps ks) (h' : Tokenized qs ls) :
    Tokenized (ps ++ qs) (ks ++ ls) where
  written := by rw [render_append, h.written, h'.written, List.flatMap_append]
  wellFormed := List.forall_mem_append.mpr ⟨h.wellFormed, h'.wellFormed⟩

/-- A block for each member of a list is written as its tokens, member by member. -/
theorem flatMap {α : Type} {f : α → List Piece} {g : α → List Token}
    (h : ∀ a, Tokenized (f a) (g a)) (l : List α) : Tokenized (l.flatMap f) (l.flatMap g) := by
  induction l with
  | nil => exact ⟨rfl, fun k hk => nomatch hk⟩
  | cons a l ih =>
      rw [List.flatMap_cons, List.flatMap_cons]
      exact (h a).append ih

/-- What is written as tokens is cut into them, with nothing before the first tag. -/
theorem cut (h : Tokenized ps ks) : cut (Markup.render ps) = ([], ks) := by
  rw [h.written, cut_written h.wellFormed]

end Markup.Tokenized

/-! ### Texts done to -/

/-- The citation with `f` done to both its texts. -/
def Citation.mapText (f : Text → Text) (c : Citation) : Citation :=
  ⟨f c.name, f c.fullname⟩

/-- The table with `f` done to each of its texts. -/
def Table.mapText (f : Text → Text) (t : Table) : Table :=
  ⟨t.headers.map f, t.rows.map fun row => row.map fun cell => cell.map (Citation.mapText f)⟩

namespace Page

/-! ### The tokens of a page -/

/-- A tag without a value. -/
def tag (m : String) : Tag :=
  ⟨[], m.toList⟩

/-- A tag with one value. -/
def tagWith (m : String) (value : Text) : Tag :=
  ⟨[(m.toList, value)], []⟩

/-- A line feed, the text after most tags. -/
def lf : Text :=
  ['\n']

/-- The tokens from the start of the page to the project root, for a title and a root. -/
def openingTokens (title root : Text) : List Token :=
  [⟨tag "!DOCTYPE html", lf⟩, ⟨tag "html", lf⟩, ⟨tag "head", lf⟩,
    ⟨tagWith "meta charset=" "utf-8".toList, lf⟩, ⟨tag "title", title⟩, ⟨tag "/title", lf⟩,
    ⟨tag "style", style.toList⟩, ⟨tag "/style", lf⟩, ⟨tag "/head", lf⟩, ⟨tag "body", lf⟩,
    ⟨tag "h1", title⟩, ⟨tag "/h1", lf⟩, ⟨tag "p", "Project root: ".toList⟩, ⟨tag "code", root⟩,
    ⟨tag "/code", []⟩, ⟨tag "/p", lf⟩]

/-- The tokens of one header of the table. -/
def headerTokens (header : Text) : List Token :=
  [⟨tag "th", header⟩, ⟨tag "/th", lf⟩]

/-- The tokens of the head of the table: the empty corner, then a cell for each header. -/
def headerRowTokens (headers : List Text) : List Token :=
  [⟨tagWith "table class=" "hover-grid".toList, lf⟩, ⟨tag "thead", []⟩, ⟨tag "tr", []⟩,
      ⟨tag "th", []⟩, ⟨tag "/th", lf⟩] ++
    (headers.flatMap headerTokens ++ [⟨tag "/tr", []⟩, ⟨tag "/thead", lf⟩])

/-- The tokens of a citation: its short name, with the full one as the title. -/
def citationTokens (c : Citation) : List Token :=
  [⟨tagWith "span title=" c.fullname, c.name⟩, ⟨tag "/span", []⟩]

/-- The tokens of a cell with its citations. -/
def cellTokens (cell : List Citation) : List Token :=
  [⟨tag "td", []⟩] ++ (cell.flatMap citationTokens ++ [⟨tag "/td", lf⟩])

/-- The tokens of a row with its label. -/
def rowTokens (row : Text × List (List Citation)) : List Token :=
  [⟨tag "tr", []⟩, ⟨tag "th", row.1⟩, ⟨tag "/th", lf⟩] ++
    (row.2.flatMap cellTokens ++ [⟨tag "/tr", lf⟩])

/-- The rows of a table with their labels. -/
def labelled (t : Table) : List (Text × List (List Citation)) :=
  t.rows.mapIdx fun r cells => (label t.headers r, cells)

/-- The tokens of the table below its head. -/
def bodyTokens (t : Table) : List Token :=
  [⟨tag "tbody", lf⟩] ++
    ((labelled t).flatMap rowTokens ++ [⟨tag "/tbody", lf⟩, ⟨tag "/table", lf⟩])

/-- The tokens behind the table. -/
def closingTokens : List Token :=
  [⟨tag "script", hoverScript.toList⟩, ⟨tag "/script", lf⟩, ⟨tag "/body", lf⟩,
    ⟨tag "/html", lf⟩]

/-- The tokens of the page of a table whose texts are written as they stand. -/
def tokens (title root : Text) (t : Table) : List Token :=
  openingTokens title root ++ (headerRowTokens t.headers ++ (bodyTokens t ++ closingTokens))

/-! ### Single tokens -/

/-- How a tag without a value is written, with the text after it. -/
@[simp] theorem written_tag (m : String) (u : Text) :
    Token.written ⟨tag m, u⟩ = '<' :: (m.toList ++ '>' :: u) := by
  simp [Token.written, Tag.written, tag]

/-- How a tag with a value is written: the value in quotation marks. -/
@[simp] theorem written_tagWith (m : String) (v u : Text) :
    Token.written ⟨tagWith m v, u⟩ = '<' :: (m.toList ++ '"' :: (v ++ '"' :: '>' :: u)) := by
  simp [Token.written, Tag.written, writtenAttribute, tagWith]

/-- A tag without a value can be cut again if it holds no quotation mark and no closing bracket, and
the text after it opens no tag. -/
@[simp] theorem wellFormed_tag_iff (m : String) (u : Text) :
    Token.WellFormed ⟨tag m, u⟩ ↔ ('"' ∉ m.toList ∧ '>' ∉ m.toList) ∧ '<' ∉ u :=
  ⟨fun h => ⟨h.tag.ending, h.text⟩, fun h => ⟨⟨fun _ ha => (List.not_mem_nil ha).elim, h.1⟩, h.2⟩⟩

/-- A tag with a value can be cut again if so can the tag without it, and the value holds no
quotation mark. -/
@[simp] theorem wellFormed_tagWith_iff (m : String) (v u : Text) :
    Token.WellFormed ⟨tagWith m v, u⟩ ↔
      ('"' ∉ m.toList ∧ '>' ∉ m.toList ∧ '"' ∉ v) ∧ '<' ∉ u := by
  constructor
  · intro h
    exact ⟨h.tag.attributes _ (List.mem_singleton_self _), h.text⟩
  · rintro ⟨hm, hu⟩
    exact ⟨⟨fun a ha => List.mem_singleton.mp ha ▸ hm, by simp [tagWith]⟩, hu⟩

/-- The style sheet opens no tag. -/
@[simp] theorem notMem_style : '<' ∉ style.toList := by
  rw [style, ofLines, String.toList_intercalate]
  simp only [List.map, String.toList_append]
  repeat rw [String.toList_ofList]
  decide +kernel

/-- The script opens no tag. -/
@[simp] theorem notMem_hoverScript : '<' ∉ hoverScript.toList := by
  rw [hoverScript, ofLines, String.toList_intercalate]
  simp only [List.map, String.toList_append]
  repeat rw [String.toList_ofList]
  decide +kernel

/-! ### Blocks

The opening of the page is compared with its tokens text by text: as one comparison it would take
long to check. -/

theorem tokenized_title (u : Text) :
    Tokenized
      [.markup "<!DOCTYPE html>\n<html>\n<head>\n<meta charset=\"utf-8\">\n<title>", .text u]
      [⟨tag "!DOCTYPE html", lf⟩, ⟨tag "html", lf⟩, ⟨tag "head", lf⟩,
        ⟨tagWith "meta charset=" "utf-8".toList, lf⟩, ⟨tag "title", escape u⟩] where
  written := by simp [Markup.render, Piece.render, lf]
  wellFormed := by simp [lf]

theorem tokenized_style :
    Tokenized [.markup "</title>\n<style>", .markup style]
      [⟨tag "/title", lf⟩, ⟨tag "style", style.toList⟩] where
  written := by simp [Markup.render, Piece.render, lf]
  wellFormed := by simp [lf]

theorem tokenized_heading (u : Text) :
    Tokenized [.markup "</style>\n</head>\n<body>\n<h1>", .text u]
      [⟨tag "/style", lf⟩, ⟨tag "/head", lf⟩, ⟨tag "body", lf⟩, ⟨tag "h1", escape u⟩] where
  written := by simp [Markup.render, Piece.render, lf]
  wellFormed := by simp [lf]

theorem tokenized_root (u : Text) :
    Tokenized [.markup "</h1>\n<p>Project root: <code>", .text u, .markup "</code></p>\n"]
      [⟨tag "/h1", lf⟩, ⟨tag "p", "Project root: ".toList⟩, ⟨tag "code", escape u⟩,
        ⟨tag "/code", []⟩, ⟨tag "/p", lf⟩] where
  written := by simp [Markup.render, Piece.render, lf]
  wellFormed := by simp [lf]

/-- The opening of a page, for any name and root. -/
theorem tokenized_opening (name root : Text) :
    Tokenized (opening name root) (openingTokens (escape (title name)) (escape root)) :=
  (tokenized_title _).append (tokenized_style.append
    ((tokenized_heading _).append (tokenized_root root)))

theorem tokenized_headerCell (h : Text) :
    Tokenized (headerCell h) (headerTokens (escape h)) where
  written := by simp [Markup.render, Piece.render, headerCell, headerTokens, lf]
  wellFormed := by simp [headerTokens, lf]

/-- The head of the table is written as the tokens of the escaped headers. -/
theorem tokenized_headerRow (headers : List Text) :
    Tokenized (headerRow headers) (headerRowTokens (headers.map escape)) := by
  have hstart : Tokenized [.markup "<table class=\"hover-grid\">\n<thead><tr><th></th>\n"]
      [⟨tagWith "table class=" "hover-grid".toList, lf⟩, ⟨tag "thead", []⟩, ⟨tag "tr", []⟩,
        ⟨tag "th", []⟩, ⟨tag "/th", lf⟩] :=
    ⟨by simp [Markup.render, Piece.render, lf], by simp [lf]⟩
  have hstop : Tokenized [.markup "</tr></thead>\n"] [⟨tag "/tr", []⟩, ⟨tag "/thead", lf⟩] :=
    ⟨by simp [Markup.render, Piece.render, lf], by simp [lf]⟩
  have hall := hstart.append ((Tokenized.flatMap tokenized_headerCell headers).append hstop)
  rw [headerRowTokens, List.flatMap_map]
  exact hall

/-- A citation is written as the tokens of the escaped one. -/
theorem tokenized_citation (c : Citation) :
    Tokenized (citation c) (citationTokens (c.mapText escape)) where
  written := by simp [Markup.render, Piece.render, citation, citationTokens, Citation.mapText]
  wellFormed := by simp [citationTokens, Citation.mapText]

/-- A cell is written as the tokens of its escaped citations. -/
theorem tokenized_cell (cs : List Citation) :
    Tokenized (cell cs) (cellTokens (cs.map (Citation.mapText escape))) := by
  have hstart : Tokenized [.markup "<td>"] [⟨tag "td", []⟩] :=
    ⟨by simp [Markup.render, Piece.render], by simp⟩
  have hstop : Tokenized [.markup "</td>\n"] [⟨tag "/td", lf⟩] :=
    ⟨by simp [Markup.render, Piece.render, lf], by simp [lf]⟩
  have hall := hstart.append ((Tokenized.flatMap tokenized_citation cs).append hstop)
  rw [cellTokens, List.flatMap_map]
  exact hall

/-- A row is written as the tokens of its escaped label and cells. -/
theorem tokenized_row (label : Text) (cells : List (List Citation)) :
    Tokenized (row label cells)
      (rowTokens (escape label, cells.map fun cs => cs.map (Citation.mapText escape))) := by
  have hstart : Tokenized [.markup "<tr><th>", .text label, .markup "</th>\n"]
      [⟨tag "tr", []⟩, ⟨tag "th", escape label⟩, ⟨tag "/th", lf⟩] :=
    ⟨by simp [Markup.render, Piece.render, lf], by simp [lf]⟩
  have hstop : Tokenized [.markup "</tr>\n"] [⟨tag "/tr", lf⟩] :=
    ⟨by simp [Markup.render, Piece.render, lf], by simp [lf]⟩
  have hall := hstart.append ((Tokenized.flatMap tokenized_cell cells).append hstop)
  rw [rowTokens, List.flatMap_map, row, List.append_assoc]
  exact hall

/-- The label of a row is a header, so what is done to the headers is done to it. -/
theorem label_map {f : Text → Text} (hf : f [] = []) (headers : List Text) (r : Nat) :
    label (headers.map f) r = f (label headers r) := by
  rw [label, label, List.getElem?_map]
  cases headers[r + 1]? with
  | none => exact hf.symm
  | some h => rfl

/-- What is done to the texts of a table is done to its rows and their labels. -/
theorem labelled_mapText {f : Text → Text} (hf : f [] = []) (t : Table) :
    labelled (t.mapText f) =
      (labelled t).map fun row =>
        (f row.1, row.2.map fun cs => cs.map (Citation.mapText f)) := by
  refine List.ext_getElem (by simp [labelled, Table.mapText]) fun r _ _ => ?_
  simp [labelled, Table.mapText, label_map hf]

/-- The labelled rows in order are the rows, each with its label by number. -/
theorem flatMap_labelled {α : Type} (g : Text → List (List Citation) → List α) (t : Table) :
    ((labelled t).flatMap fun row => g row.1 row.2) =
      (t.rows.mapIdx fun r cells => g (label t.headers r) cells).flatten := by
  rw [List.flatMap_def]
  exact congrArg List.flatten (List.ext_getElem (by simp [labelled]) (by simp [labelled]))

/-- The body is written as the tokens of the table with its texts escaped. -/
theorem tokenized_body (t : Table) : Tokenized (body t) (bodyTokens (t.mapText escape)) := by
  have hstart : Tokenized [.markup "<tbody>\n"] [⟨tag "tbody", lf⟩] :=
    ⟨by simp [Markup.render, Piece.render, lf], by simp [lf]⟩
  have hstop : Tokenized [.markup "</tbody>\n</table>\n"]
      [⟨tag "/tbody", lf⟩, ⟨tag "/table", lf⟩] :=
    ⟨by simp [Markup.render, Piece.render, lf], by simp [lf]⟩
  have hrows := Tokenized.flatMap
    (fun row : Text × List (List Citation) => tokenized_row row.1 row.2) (labelled t)
  have hall := hstart.append (hrows.append hstop)
  rw [bodyTokens, labelled_mapText rfl, List.flatMap_map, body, ← flatMap_labelled]
  exact hall

theorem tokenized_script :
    Tokenized [.markup "<script>", .markup hoverScript] [⟨tag "script", hoverScript.toList⟩] where
  written := by simp [Markup.render, Piece.render]
  wellFormed := by simp

/-- The page is closed by the script and the ends of the open elements. -/
theorem tokenized_closing : Tokenized closing closingTokens := by
  have hstop : Tokenized [.markup "</script>\n</body>\n</html>\n"]
      [⟨tag "/script", lf⟩, ⟨tag "/body", lf⟩, ⟨tag "/html", lf⟩] :=
    ⟨by simp [Markup.render, Piece.render, lf], by simp [lf]⟩
  exact tokenized_script.append hstop

/-- **A page is cut into its tokens.** -/
theorem cut_render (t : Table) (name root : Text) :
    cut (render t name root) =
      ([], tokens (escape (title name)) (escape root) (t.mapText escape)) := by
  have hall := (tokenized_opening name root).append ((tokenized_headerRow t.headers).append
    ((tokenized_body t).append tokenized_closing))
  rw [render, pieces, List.append_assoc, List.append_assoc]
  exact hall.cut

end Page

end ImportXref

import ImportXref.Proofs.Report.PageTokens

/-!
# The page — what a page says

The contents of a page are the texts of its `title` attributes and the texts in the elements that
hold names; everything else is its outline.

* `Page.outline_render`: the outline of a page is that of the blank table of the same shape.
* `Page.decoded_render`: with its entities read, a page has the tokens of the table itself.
* `Page.tokens_injective`: the tokens tell the title, the root and the table.
* `Page.says_exactly`: the outline tells the shape and nothing else, the contents are those of the
  table, and the page tells the table, the name and the root.
-/

namespace ImportXref

open Markup

/-! ### Blocks that can be told apart -/

section

variable {α β : Type} {f : α → List β}

/-- What `f` gives for a value can be told from whatever follows it. -/
def Delimited (f : α → List β) : Prop :=
  ∀ a b s s', f a ++ s = f b ++ s' → a = b ∧ s = s'

/-- A fixed beginning makes no difference to what can be told apart. -/
theorem Delimited.prepend (hf : Delimited f) (l : List β) : Delimited fun a => l ++ f a := by
  intro a b s s' h
  rw [List.append_assoc, List.append_assoc] at h
  exact hf a b s s' (List.append_cancel_left h)

/-- Blocks one after the other, up to a stop that no block begins with, can be told from whatever
follows the stop. -/
theorem Delimited.flatMap (hf : Delimited f) {stop : List β}
    (hstop : ∀ a s s', f a ++ s ≠ stop ++ s') :
    Delimited fun l : List α => l.flatMap f ++ stop := by
  intro l l' s s' h
  simp only [List.append_assoc] at h
  induction l generalizing l' with
  | nil =>
      cases l' with
      | nil => exact ⟨rfl, List.append_cancel_left h⟩
      | cons b l' =>
          rw [List.flatMap_nil, List.nil_append, List.flatMap_cons, List.append_assoc] at h
          exact absurd h.symm (hstop b _ s)
  | cons a l ih =>
      rw [List.flatMap_cons, List.append_assoc] at h
      cases l' with
      | nil => exact absurd h (hstop a _ s')
      | cons b l' =>
          rw [List.flatMap_cons, List.append_assoc] at h
          obtain ⟨rfl, hrest⟩ := hf a b _ _ h
          obtain ⟨rfl, hs⟩ := ih l' hrest
          exact ⟨rfl, hs⟩

end

/-! ### The shape of a table -/

/-- How many headers a table has, and how many citations each cell of each row holds. -/
structure Table.Shape where
  headers : Nat
  rows : List (List Nat)
  deriving DecidableEq, Repr

/-- The shape of a table. -/
def Table.shape (t : Table) : Table.Shape :=
  ⟨t.headers.length, t.rows.map fun row => row.map List.length⟩

/-- The table of a shape that holds no text. -/
def Table.Shape.blank (s : Table.Shape) : Table :=
  ⟨List.replicate s.headers [],
    s.rows.map fun row => row.map fun n => List.replicate n ⟨[], []⟩⟩

/-- The blank table of a shape has this shape. -/
theorem Table.Shape.shape_blank (s : Table.Shape) : s.blank.shape = s := by
  simp [Table.shape, Table.Shape.blank, Function.comp_def]

/-- A shape can be read off its blank table. -/
theorem Table.Shape.blank_injective {s s' : Table.Shape} (h : s.blank = s'.blank) : s = s' := by
  rw [← s.shape_blank, h, s'.shape_blank]

/-- With its texts made empty, a table is the blank one of its shape. -/
theorem Table.mapText_blank (t : Table) : t.mapText (fun _ => []) = t.shape.blank := by
  have hcell (cell : List Citation) :
      cell.map (Citation.mapText fun _ => []) = List.replicate cell.length ⟨[], []⟩ :=
    List.map_const' ..
  simp [Table.mapText, Table.shape, Table.Shape.blank, Function.comp_def, hcell, List.map_const']

theorem Table.mapText_mapText (f g : Text → Text) (t : Table) :
    (t.mapText f).mapText g = t.mapText (g ∘ f) := by
  simp [Table.mapText, Citation.mapText, Function.comp_def]

theorem Table.mapText_id (t : Table) : t.mapText id = t := by
  have hcitation : Citation.mapText id = id := rfl
  simp [Table.mapText, hcitation]

/-! ### The contents of a token -/

namespace Markup

/-- The element that a tag begins. -/
def Tag.element (g : Tag) : Text :=
  match g.attributes with
  | [] => g.ending.takeWhile (· ≠ ' ')
  | (m, _) :: _ => m.takeWhile (· ≠ ' ')

/-- The tag begins an element whose text is content. -/
def Tag.HoldsText (g : Tag) : Prop :=
  g.element ∈ ["title", "h1", "code", "th", "span"].map String.toList

instance (g : Tag) : Decidable g.HoldsText :=
  inferInstanceAs (Decidable (_ ∈ _))

/-- What stands before a value makes it the value of a `title` attribute. -/
def IsTitle (m : Text) : Prop :=
  " title=".toList <:+ m

instance (m : Text) : Decidable (IsTitle m) :=
  inferInstanceAs (Decidable (_ <:+ _))

/-- The token with `f` done to its contents. -/
def Token.mapText (f : Text → Text) (k : Token) : Token where
  tag :=
    { k.tag with
      attributes := k.tag.attributes.map fun a => (a.1, if IsTitle a.1 then f a.2 else a.2) }
  text := if k.tag.HoldsText then f k.text else k.text

/-- The contents of a token: the titles in its tag, and its text if that is content. -/
def Token.contents (k : Token) : List Text :=
  (k.tag.attributes.filter fun a => IsTitle a.1).map Prod.snd ++
    if k.tag.HoldsText then [k.text] else []

end Markup

namespace Page

/-! ### The contents of the tokens of a page -/

variable (f : Text → Text)

/-- A tag without a value has contents only in the text after it. -/
theorem mapText_tag (m : String) (u : Text) :
    Token.mapText f ⟨tag m, u⟩ = ⟨tag m, if (tag m).HoldsText then f u else u⟩ :=
  rfl

/-- A tag with a value has contents in it if it is a title. -/
theorem mapText_tagWith (m : String) (v u : Text) :
    Token.mapText f ⟨tagWith m v, u⟩ =
      ⟨tagWith m (if IsTitle m.toList then f v else v),
        if (tag m).HoldsText then f u else u⟩ :=
  rfl

theorem contents_tag (m : String) (u : Text) :
    Token.contents ⟨tag m, u⟩ = if (tag m).HoldsText then [u] else [] :=
  rfl

theorem contents_tagWith (m : String) (v u : Text) :
    Token.contents ⟨tagWith m v, u⟩ =
      (if IsTitle m.toList then [v] else []) ++ if (tag m).HoldsText then [u] else [] := by
  have htitles : (([(m.toList, v)].filter fun a => IsTitle a.1).map Prod.snd) =
      if IsTitle m.toList then [v] else [] := by
    by_cases h : IsTitle m.toList <;> simp [h]
  rw [← htitles]
  rfl

/-- The contents of the opening are its title and the root. -/
theorem mapText_openingTokens (title root : Text) :
    (openingTokens title root).map (Token.mapText f) = openingTokens (f title) (f root) := by
  simp +decide only [openingTokens, List.map_cons, List.map_nil, mapText_tag, mapText_tagWith,
    if_true, if_false]

/-- The contents of the head of the table are the headers; the corner holds the empty text. -/
theorem mapText_headerRowTokens (hf : f [] = []) (headers : List Text) :
    (headerRowTokens headers).map (Token.mapText f) = headerRowTokens (headers.map f) := by
  simp +decide only [headerRowTokens, headerTokens, List.map_append, List.map_flatMap,
    List.flatMap_map, List.map_cons, List.map_nil, mapText_tag, mapText_tagWith, if_true,
    if_false, hf]

/-- The contents of a row are its label and the names of its citations. -/
theorem mapText_rowTokens (row : Text × List (List Citation)) :
    (rowTokens row).map (Token.mapText f) =
      rowTokens (f row.1, row.2.map fun cs => cs.map (Citation.mapText f)) := by
  simp +decide only [rowTokens, cellTokens, citationTokens, Citation.mapText, List.map_append,
    List.map_flatMap, List.flatMap_map, List.map_cons, List.map_nil, mapText_tag,
    mapText_tagWith, if_true, if_false]

theorem mapText_closingTokens : closingTokens.map (Token.mapText f) = closingTokens := by
  simp +decide only [closingTokens, List.map_cons, List.map_nil, mapText_tag, if_false]

/-- Done to the contents of a page, `f` is done to the title, the root and the table. -/
theorem mapText_tokens (hf : f [] = []) (title root : Text) (t : Table) :
    (tokens title root t).map (Token.mapText f) = tokens (f title) (f root) (t.mapText f) := by
  have hbody : (bodyTokens t).map (Token.mapText f) = bodyTokens (t.mapText f) := by
    simp +decide only [bodyTokens, labelled_mapText hf, List.map_append, List.map_flatMap,
      List.flatMap_map, mapText_rowTokens, List.map_cons, List.map_nil, mapText_tag, if_false]
  simp only [tokens, List.map_append, mapText_openingTokens, mapText_headerRowTokens f hf, hbody,
    mapText_closingTokens]
  rfl

/-- The title is said twice, in the head of the page and in the heading. -/
theorem contents_openingTokens (title root : Text) :
    (openingTokens title root).flatMap Token.contents = [title, title, root] := by
  simp +decide only [openingTokens, List.flatMap_cons, List.flatMap_nil, contents_tag,
    contents_tagWith, if_true, if_false, List.nil_append, List.cons_append]

/-- The first cell of the header row is empty. -/
theorem contents_headerRowTokens (headers : List Text) :
    (headerRowTokens headers).flatMap Token.contents = [] :: headers := by
  simp +decide only [headerRowTokens, headerTokens, List.flatMap_append, List.flatMap_assoc,
    List.flatMap_cons, List.flatMap_nil, contents_tag, contents_tagWith, if_true, if_false,
    List.nil_append, List.append_nil, List.cons_append, List.flatMap_singleton']

/-- A row says its label, and the full and the short name of each citation in order. -/
theorem contents_rowTokens (row : Text × List (List Citation)) :
    (rowTokens row).flatMap Token.contents =
      row.1 :: row.2.flatten.flatMap fun c => [c.fullname, c.name] := by
  have hcells : (row.2.flatMap cellTokens).flatMap Token.contents =
      row.2.flatten.flatMap fun c => [c.fullname, c.name] := by
    rw [List.flatten_eq_flatMap, List.flatMap_assoc, List.flatMap_assoc]
    simp +decide only [cellTokens, citationTokens, List.flatMap_append, List.flatMap_assoc,
      List.flatMap_cons, List.flatMap_nil, contents_tag, contents_tagWith, if_true, if_false,
      List.nil_append, List.append_nil, List.cons_append, id]
  simp +decide only [rowTokens, List.flatMap_append, hcells, List.flatMap_cons, List.flatMap_nil,
    contents_tag, if_true, if_false, List.nil_append, List.append_nil, List.cons_append]

theorem contents_closingTokens : closingTokens.flatMap Token.contents = [] := by
  decide

/-- The contents in order: the title twice, the root, the headers after the empty corner, and the
rows. -/
theorem contents_tokens (title root : Text) (t : Table) :
    (tokens title root t).flatMap Token.contents =
      [title, title, root, []] ++ t.headers ++
        (labelled t).flatMap fun row =>
          row.1 :: row.2.flatten.flatMap fun c => [c.fullname, c.name] := by
  have hbody : (bodyTokens t).flatMap Token.contents = (labelled t).flatMap fun row =>
      row.1 :: row.2.flatten.flatMap fun c => [c.fullname, c.name] := by
    simp +decide only [bodyTokens, List.flatMap_append, List.flatMap_assoc, contents_rowTokens,
      List.flatMap_cons, List.flatMap_nil, contents_tag, if_false, List.nil_append,
      List.append_nil]
  simp only [tokens, List.flatMap_append, contents_openingTokens, contents_headerRowTokens, hbody,
    contents_closingTokens, List.append_nil, List.cons_append, List.nil_append]

/-! ### The tokens tell the table -/

theorem cons_ne_of_tag {k k' : Token} {s s' : List Token} (h : k.tag ≠ k'.tag) :
    k :: s ≠ k' :: s' :=
  fun heq => h (congrArg Token.tag (List.cons.inj heq).1)

/-- Headers can be told from what follows the head of the table. -/
theorem delimited_headerRowTokens : Delimited headerRowTokens := by
  have hheader : Delimited headerTokens := fun a b s s' h => by simpa [headerTokens] using h
  have hstop (header : Text) (s s' : List Token) :
      headerTokens header ++ s ≠ [⟨tag "/tr", []⟩, ⟨tag "/thead", lf⟩] ++ s' :=
    cons_ne_of_tag (show tag "th" ≠ tag "/tr" by decide)
  exact (hheader.flatMap hstop).prepend _

theorem delimited_cellTokens : Delimited cellTokens := by
  have hcitation : Delimited citationTokens := by
    rintro ⟨name, fullname⟩ ⟨name', fullname'⟩ s s' h
    simpa [citationTokens, tagWith, and_comm, and_assoc] using h
  have hstop (c : Citation) (s s' : List Token) :
      citationTokens c ++ s ≠ [⟨tag "/td", lf⟩] ++ s' :=
    cons_ne_of_tag fun h => List.cons_ne_nil _ _ (congrArg Tag.attributes h)
  exact (hcitation.flatMap hstop).prepend _

/-- The label and the cells can be told from what follows their row. -/
theorem delimited_rowTokens : Delimited rowTokens := by
  have hstop (cell : List Citation) (s s' : List Token) :
      cellTokens cell ++ s ≠ [⟨tag "/tr", lf⟩] ++ s' :=
    cons_ne_of_tag (show tag "td" ≠ tag "/tr" by decide)
  rintro ⟨label, cells⟩ ⟨label', cells'⟩ s s' h
  have hlabel : label = label' ∧
      cells.flatMap cellTokens ++ [⟨tag "/tr", lf⟩] ++ s =
        cells'.flatMap cellTokens ++ [⟨tag "/tr", lf⟩] ++ s' := by
    simpa [rowTokens] using h
  obtain ⟨rfl, hcells⟩ := hlabel
  obtain ⟨rfl, hs⟩ := delimited_cellTokens.flatMap hstop cells cells' s s' hcells
  exact ⟨rfl, hs⟩

/-- A table can be read off its headers and its labelled rows. -/
theorem labelled_injective {t t' : Table} (hheaders : t.headers = t'.headers)
    (h : labelled t = labelled t') : t = t' := by
  have hrows (t : Table) : (labelled t).map Prod.snd = t.rows :=
    List.ext_getElem (by simp [labelled]) (by simp [labelled])
  obtain ⟨headers, rows⟩ := t
  have hrows' := hrows ⟨headers, rows⟩
  rw [h, hrows t'] at hrows'
  rw [Table.mk.injEq]
  exact ⟨hheaders, hrows'.symm⟩

/-- The rows can be told from what follows the body of the table. -/
theorem delimited_bodyTokens : Delimited fun rows : List (Text × List (List Citation)) =>
    [⟨tag "tbody", lf⟩] ++
      (rows.flatMap rowTokens ++ [⟨tag "/tbody", lf⟩, ⟨tag "/table", lf⟩]) := by
  have hstop (row : Text × List (List Citation)) (s s' : List Token) :
      rowTokens row ++ s ≠ [⟨tag "/tbody", lf⟩, ⟨tag "/table", lf⟩] ++ s' :=
    cons_ne_of_tag (show tag "tr" ≠ tag "/tbody" by decide)
  exact (delimited_rowTokens.flatMap hstop).prepend _

/-- **The tokens tell the table.** -/
theorem tokens_injective {title title' root root' : Text} {t t' : Table}
    (h : tokens title root t = tokens title' root' t') :
    title = title' ∧ root = root' ∧ t = t' := by
  have hopening : title = title' ∧ root = root' ∧
      headerRowTokens t.headers ++ (bodyTokens t ++ closingTokens) =
        headerRowTokens t'.headers ++ (bodyTokens t' ++ closingTokens) := by
    simpa [tokens, openingTokens, and_assoc] using h
  obtain ⟨htitle, hroot, hrest⟩ := hopening
  obtain ⟨hheaders, hbody⟩ := delimited_headerRowTokens _ _ _ _ hrest
  have hrows := (delimited_bodyTokens (labelled t) (labelled t') _ _ hbody).1
  exact ⟨htitle, hroot, labelled_injective hheaders hrows⟩

/-! ### A page read -/

/-- What stands before the first tag, and the tags with the texts after them, contents left
out. -/
def outline (page : Text) : Text × List Token :=
  ((cut page).1, (cut page).2.map (Token.mapText fun _ => []))

/-- The tokens of a page with the entities of their contents read. -/
def decoded (page : Text) : List Token :=
  (cut page).2.map (Token.mapText unescape)

/-- The contents of a page in order, with their entities read. -/
def contents (page : Text) : List Text :=
  (decoded page).flatMap Token.contents

/-- **The outline of a page** is that of the blank table of the same shape. -/
theorem outline_render (t : Table) (name root : Text) :
    outline (render t name root) = ([], tokens [] [] t.shape.blank) := by
  rw [outline, cut_render, mapText_tokens _ rfl, Table.mapText_mapText]
  exact congrArg (fun b => ([], tokens [] [] b)) t.mapText_blank

/-- **A page read with its entities** has the tokens of the texts of the table themselves. -/
theorem decoded_render (t : Table) (name root : Text) :
    decoded (render t name root) = tokens (title name) root t := by
  have hid : unescape ∘ escape = id := funext unescape_escape
  rw [decoded, cut_render, mapText_tokens _ rfl, unescape_escape, unescape_escape,
    Table.mapText_mapText, hid, t.mapText_id]

/-- **A page says exactly what its table holds.**  Two pages have the same outline, that is, the
same tags with the same texts between them but for the contents, just when the tables have the
same shape.  The contents are the title, in the head and in the heading, the root, nothing in the
corner of the table, the headers, and for each row its label and the full and the short name of
each citation, cell by cell.  Two pages are the same just when the tables, the names and the roots
are. -/
theorem says_exactly (t t' : Table) (name name' root root' : Text) :
    (outline (render t name root) = outline (render t' name' root') ↔ t.shape = t'.shape) ∧
    contents (render t name root) =
      [title name, title name, root, []] ++ t.headers ++
        (t.rows.mapIdx fun r row =>
          label t.headers r :: row.flatten.flatMap fun c => [c.fullname, c.name]).flatten ∧
    (render t name root = render t' name' root' ↔ t = t' ∧ name = name' ∧ root = root') := by
  refine ⟨?shape, ?contents, ?page⟩
  case shape =>
    rw [outline_render, outline_render]
    constructor
    · intro h
      have htokens := tokens_injective (Prod.ext_iff.mp h).2
      exact Table.Shape.blank_injective htokens.2.2
    · intro h
      rw [h]
  case contents =>
    rw [contents, decoded_render, contents_tokens,
      flatMap_labelled fun label row => label :: row.flatten.flatMap fun c => [c.fullname, c.name]]
  case page =>
    constructor
    · intro h
      have htokens := congrArg decoded h
      rw [decoded_render, decoded_render] at htokens
      obtain ⟨htitle, hroot, htable⟩ := tokens_injective htokens
      exact ⟨htable, List.append_cancel_left htitle, hroot⟩
    · rintro ⟨rfl, rfl, rfl⟩
      rfl

end Page

end ImportXref

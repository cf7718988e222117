import ImportXref.Text.Basic

/-!
# Markup — a page cut at its tags

A tag begins at `<` and ends at the first `>` outside its quoted values; everything else is text.
`Markup.cut` reads a page character by character, in a text, in a tag or in a quoted value.

* `Tag.written`, `Token.written`: a tag, and a tag with the text after it, as they stand in a page.
* `Token.WellFormed`: the text opens no tag, and the tag is over where it ends.
* `cut_written`: a page of well-formed tokens is cut into these tokens.
-/

namespace ImportXref.Markup

/-- A tag. -/
structure Tag where
  /-- The quoted values, each after what stands before it. -/
  attributes : List (Text × Text)
  /-- What stands after the last value. -/
  ending : Text
  deriving DecidableEq, Repr

/-- A tag and the text up to the next one. -/
structure Token where
  tag : Tag
  text : Text
  deriving DecidableEq, Repr

/-! ### Writing -/

/-- What stands before a value, and the value in quotes. -/
def writtenAttribute (a : Text × Text) : Text :=
  a.1 ++ '"' :: (a.2 ++ ['"'])

/-- How a tag is written. -/
def Tag.written (t : Tag) : Text :=
  '<' :: (t.attributes.flatMap writtenAttribute ++ (t.ending ++ ['>']))

/-- How a tag and the text after it are written. -/
def Token.written (k : Token) : Text :=
  k.tag.written ++ k.text

/-! ### Cutting -/

/-- The tag with `m` in front. -/
def Tag.prepend (m : Text) (t : Tag) : Tag :=
  match t.attributes with
  | [] => { t with ending := m ++ t.ending }
  | (n, v) :: rest => { t with attributes := (m ++ n, v) :: rest }

mutual

/-- The text in front of the first tag, and every tag with the text after it. -/
def cut : Text → Text × List Token
  | [] => ([], [])
  | c :: t =>
    if c = '<' then
      let (tag, text, rest) := cutTag t
      ([], ⟨tag, text⟩ :: rest)
    else
      let (text, rest) := cut t
      (c :: text, rest)

/-- The rest of a tag, and what follows it. -/
def cutTag : Text → Tag × Text × List Token
  | [] => (⟨[], []⟩, [], [])
  | c :: t =>
    if c = '>' then (⟨[], []⟩, cut t)
    else if c = '"' then
      let (value, tag, rest) := cutValue t
      (⟨([], value) :: tag.attributes, tag.ending⟩, rest)
    else
      let (tag, rest) := cutTag t
      (tag.prepend [c], rest)

/-- The rest of a quoted value, the rest of its tag, and what follows that. -/
def cutValue : Text → Text × Tag × Text × List Token
  | [] => ([], ⟨[], []⟩, [], [])
  | c :: t =>
    if c = '"' then ([], cutTag t)
    else
      let (value, rest) := cutValue t
      (c :: value, rest)

end

/-! ### What is written is cut -/

/-- No quote and no end of the tag stand outside its values, and no quote stands in one. -/
structure Tag.WellFormed (t : Tag) : Prop where
  attributes : ∀ a ∈ t.attributes, '"' ∉ a.1 ∧ '>' ∉ a.1 ∧ '"' ∉ a.2
  ending : '"' ∉ t.ending ∧ '>' ∉ t.ending

/-- The tag is over where it ends, and the text after it opens no tag. -/
structure Token.WellFormed (k : Token) : Prop where
  tag : k.tag.WellFormed
  text : '<' ∉ k.text

theorem Tag.prepend_nil (t : Tag) : t.prepend [] = t := by
  obtain ⟨attributes, ending⟩ := t
  cases attributes <;> rfl

theorem Tag.prepend_cons (c : Char) (m : Text) (t : Tag) :
    t.prepend (c :: m) = (t.prepend m).prepend [c] := by
  obtain ⟨attributes, ending⟩ := t
  cases attributes <;> rfl

/-- Text up to the first tag is cut as text. -/
theorem cut_append {u : Text} (h : '<' ∉ u) (t : Text) :
    cut (u ++ t) = (u ++ (cut t).1, (cut t).2) := by
  induction u with
  | nil => rfl
  | cons c u ih =>
      have hc : c ≠ '<' := (List.ne_of_not_mem_cons h).symm
      rw [List.cons_append, cut, if_neg hc, ih (List.not_mem_of_not_mem_cons h)]
      rfl

/-- In a tag, everything is read up to the closing bracket or to a quotation mark. -/
theorem cutTag_append {m : Text} (hquote : '"' ∉ m) (hend : '>' ∉ m) (t : Text) :
    cutTag (m ++ t) = ((cutTag t).1.prepend m, (cutTag t).2) := by
  induction m with
  | nil => rw [List.nil_append, Tag.prepend_nil]
  | cons c m ih =>
      have hcq : c ≠ '"' := (List.ne_of_not_mem_cons hquote).symm
      have hce : c ≠ '>' := (List.ne_of_not_mem_cons hend).symm
      have hm := ih (List.not_mem_of_not_mem_cons hquote) (List.not_mem_of_not_mem_cons hend)
      rw [List.cons_append, cutTag, if_neg hce, if_neg hcq, hm, Tag.prepend_cons]

/-- In a quoted value, everything is read up to its closing mark, brackets included. -/
theorem cutValue_append {v : Text} (h : '"' ∉ v) (t : Text) :
    cutValue (v ++ '"' :: t) = (v, cutTag t) := by
  induction v with
  | nil => rfl
  | cons c v ih =>
      have hc : c ≠ '"' := (List.ne_of_not_mem_cons h).symm
      rw [List.cons_append, cutValue, if_neg hc, ih (List.not_mem_of_not_mem_cons h)]

/-- The rest of a written tag is read to its end. -/
theorem cutTag_written {attributes : List (Text × Text)} {ending : Text}
    (h : Tag.WellFormed ⟨attributes, ending⟩) (t : Text) :
    cutTag (attributes.flatMap writtenAttribute ++ (ending ++ '>' :: t)) =
      (⟨attributes, ending⟩, cut t) := by
  induction attributes with
  | nil =>
      rw [List.flatMap_nil, List.nil_append, cutTag_append h.ending.1 h.ending.2]
      simp [cutTag, Tag.prepend]
  | cons a attributes ih =>
      obtain ⟨⟨hquote, hend, hvalue⟩, hrest⟩ := List.forall_mem_cons.mp h.attributes
      have hvalueRead := cutValue_append hvalue
        (attributes.flatMap writtenAttribute ++ (ending ++ '>' :: t))
      rw [ih ⟨hrest, h.ending⟩] at hvalueRead
      rw [List.flatMap_cons, writtenAttribute, List.append_assoc, List.append_assoc,
        List.cons_append, List.append_assoc, cutTag_append hquote hend]
      simp [cutTag, hvalueRead, Tag.prepend]

/-- A well-formed token is cut off at its end, and the text behind it goes on. -/
theorem cut_token {k : Token} (h : k.WellFormed) (t : Text) :
    cut (k.written ++ t) = ([], ⟨k.tag, k.text ++ (cut t).1⟩ :: (cut t).2) := by
  have htag := cutTag_written h.tag (k.text ++ t)
  rw [cut_append h.text] at htag
  have hwritten : k.written ++ t = '<' :: (k.tag.attributes.flatMap writtenAttribute ++
      (k.tag.ending ++ '>' :: (k.text ++ t))) := by simp [Token.written, Tag.written]
  rw [hwritten, cut, if_pos rfl, htag]

/-- **What is written is cut.**  A page of well-formed tokens has no text in front of its first
tag and is cut into these tokens. -/
theorem cut_written {tokens : List Token} (h : ∀ k ∈ tokens, k.WellFormed) :
    cut (tokens.flatMap Token.written) = ([], tokens) := by
  induction tokens with
  | nil => rfl
  | cons k tokens ih =>
      obtain ⟨hk, htokens⟩ := List.forall_mem_cons.mp h
      rw [List.flatMap_cons, cut_token hk, ih htokens, List.append_nil]

end ImportXref.Markup

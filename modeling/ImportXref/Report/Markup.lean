import ImportXref.Text.Basic

/-!
# Markup — text inside HTML

`Markup.escape` puts an entity for each of the five characters that mean something in HTML, one
character after the other.  A page is a list of pieces, markup that is written as it is and texts
that are escaped.
-/

namespace ImportXref.Markup

/-- The characters that mean something in HTML and their entities, in the order in which they are
replaced.  The ampersand comes first, for it stands in every entity. -/
def entities : List (Char × Text) :=
  [('&', ['&', 'a', 'm', 'p', ';']), ('<', ['&', 'l', 't', ';']), ('>', ['&', 'g', 't', ';']),
    ('"', ['&', 'q', 'u', 'o', 't', ';']), ('\'', ['&', '#', '3', '9', ';'])]

/-- The text with `e.2` in every place of the character `e.1`. -/
def replaced (t : Text) (e : Char × Text) : Text :=
  t.flatMap fun c => if c = e.1 then e.2 else [c]

/-- The text with its special characters as entities. -/
def escape (t : Text) : Text :=
  entities.foldl replaced t

/-- A piece of a page. -/
inductive Piece where
  /-- Markup, written as it is. -/
  | markup (s : String)
  /-- Text, written with entities. -/
  | text (t : Text)
  deriving DecidableEq, Repr

/-- How a piece is written. -/
def Piece.render : Piece → Text
  | markup s => s.toList
  | text t => escape t

/-- How a list of pieces is written. -/
def render (pieces : List Piece) : Text :=
  pieces.flatMap Piece.render

theorem render_append (ps qs : List Piece) : render (ps ++ qs) = render ps ++ render qs :=
  List.flatMap_append

end ImportXref.Markup

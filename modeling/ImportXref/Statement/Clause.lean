import ImportXref.Text.Blank

/-!
# Clauses — the names listed in an import statement

A clause is cut at its commas.  A piece loses its blanks, the parentheses around the list, a line
continuation and everything from its first `as` between blanks on; a piece with nothing left
names nothing.
-/

namespace ImportXref.Clause

/-- Whether a text begins with blanks, the word `as` and another blank. -/
def startsAlias (t : Text) : Bool :=
  match t with
  | [] => false
  | c :: _ =>
    isBlank c &&
      match t.trimStart with
      | 'a' :: 's' :: b :: _ => isBlank b
      | _ => false

/-- What stands before the first alias of a piece.  The part before it may not hold a line
feed. -/
def beforeAlias? : Text → Option Text
  | [] => none
  | c :: t =>
    if startsAlias (c :: t) then some []
    else if c = '\n' then none
    else (beforeAlias? t).map (c :: ·)

/-- A piece without its blanks, the parentheses around the list and a line continuation. -/
def bare (piece : Text) : Text :=
  let opened := piece.trim.dropWhile (· == '(')
  let continued := (Text.dropEndWhile (· == '\\') opened).trimEnd
  (Text.dropEndWhile (· == ')') continued).trim

/-- The name in a piece; empty if there is none. -/
def pieceName (piece : Text) : Text :=
  match beforeAlias? (bare piece) with
  | some name => name.trim
  | none => bare piece

/-- The names in a clause, in order and with duplicates. -/
def names (clause : Text) : List Text :=
  ((clause.splitOn ',').map pieceName).filter (· != [])

end ImportXref.Clause

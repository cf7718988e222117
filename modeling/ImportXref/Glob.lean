import ImportXref.Text.Basic

/-!
# Glob patterns — which paths a pattern matches

`?` stands for one character and `*` for any number, slashes included.  Two stars that make up a
whole component stand for any number of whole components.  A bracket expression stands for one
character of its ranges or, after `!`, for one outside them; a closing bracket that comes first is
a member.  There is no escape character.

`matchTokens` says what a pattern means; `verdicts` works it out for all suffixes of a text at
once, in time proportional to the two lengths, and `verdicts_eq` says that it does.
-/

namespace ImportXref

namespace Glob

/-- What a part of a pattern stands for. -/
inductive Token where
  /-- The character itself. -/
  | char (c : Char)
  /-- One character. -/
  | anyChar
  /-- Any number of characters. -/
  | anySequence
  /-- Any number of components. -/
  | anyComponents
  /-- One character in one of the ranges. -/
  | oneOf (ranges : List (Char × Char))
  /-- One character in none of the ranges. -/
  | noneOf (ranges : List (Char × Char))
  deriving DecidableEq, Repr

/-- The ranges of a bracket expression; a character alone is a range of one. -/
def ranges : Text → List (Char × Char)
  | a :: '-' :: b :: t => (a, b) :: ranges t
  | a :: t => (a, a) :: ranges t
  | [] => []

/-- Where the reader of a pattern stands. -/
inductive Position where
  /-- Outside brackets; `fresh` at the start of a component. -/
  | outside (fresh : Bool)
  /-- Inside brackets after the members `members`. -/
  | inside (negated : Bool) (members : Text)

/-- The token of a bracket expression. -/
def bracket (negated : Bool) (members : Text) : Token :=
  if negated then .noneOf (ranges members) else .oneOf (ranges members)

/-- Reads a pattern from a position on. -/
def tokensFrom : Position → Text → Option (List Token)
  | .outside _, [] => some []
  | .outside _, '?' :: t => (tokensFrom (.outside false) t).map (.anyChar :: ·)
  | .outside _, '*' :: '*' :: '*' :: _ => none
  | .outside fresh, '*' :: '*' :: [] => if fresh then some [.anyComponents] else none
  | .outside fresh, '*' :: '*' :: c :: t =>
    if fresh && c == '/' then (tokensFrom (.outside true) t).map (.anyComponents :: ·) else none
  | .outside _, '*' :: t => (tokensFrom (.outside false) t).map (.anySequence :: ·)
  | .outside _, '[' :: '!' :: t => tokensFrom (.inside true []) t
  | .outside _, '[' :: t => tokensFrom (.inside false []) t
  | .outside _, c :: t => (tokensFrom (.outside (c == '/')) t).map (.char c :: ·)
  | .inside _ _, [] => none
  | .inside negated members, c :: t =>
    if c = ']' ∧ members ≠ [] then
      (tokensFrom (.outside false) t).map (bracket negated members :: ·)
    else tokensFrom (.inside negated (members ++ [c])) t

/-- Whether the text or what is left of it after some characters has the property. -/
def anySuffix (p : Text → Bool) : Text → Bool
  | [] => p []
  | c :: t => p (c :: t) || anySuffix p t

/-- Whether the empty end of the text or what is left of it after a slash has the property. -/
def anyLaterComponent (p : Text → Bool) : Text → Bool
  | [] => p []
  | c :: t => (c == '/' && p t) || anyLaterComponent p t

/-- Whether the character lies in one of the ranges. -/
def inRange (c : Char) (rs : List (Char × Char)) : Bool :=
  rs.any fun (a, b) => a ≤ c && c ≤ b

/-- Whether the text begins with a character of the class `p` and what follows it has the
property `q`. -/
def beginsWith (p : Char → Bool) (q : Text → Bool) : Text → Bool
  | [] => false
  | c :: t => p c && q t

/-- Whether the tokens match the whole text. -/
def matchTokens : List Token → Text → Bool
  | [] => List.isEmpty
  | .anySequence :: ts => anySuffix (matchTokens ts)
  | .anyComponents :: ts => fun t => matchTokens ts t || anyLaterComponent (matchTokens ts) t
  | .char a :: ts => beginsWith (a == ·) (matchTokens ts)
  | .anyChar :: ts => beginsWith (fun _ => true) (matchTokens ts)
  | .oneOf rs :: ts => beginsWith (inRange · rs) (matchTokens ts)
  | .noneOf rs :: ts => beginsWith (!inRange · rs) (matchTokens ts)

/-! ### All suffixes at once -/

/-- The property of each suffix of the text, the longest first. -/
def along (p : Text → Bool) : Text → List Bool
  | [] => [p []]
  | c :: t => p (c :: t) :: along p t

/-- From a property of each suffix, whether one has it that is not longer. -/
def alongSuffixes : List Bool → List Bool
  | [] => []
  | b :: marks =>
    let later := alongSuffixes marks
    (b || later.headD false) :: later

/-- From a property of each suffix, whether a later component has it, or the empty end. -/
def alongComponents : Text → List Bool → List Bool
  | [], marks => marks
  | c :: t, marks =>
    let later := alongComponents t marks.tail
    ((c == '/' && marks.tail.headD false) || later.headD false) :: later

/-- From a property of each suffix, whether the next one has it after a character of the class. -/
def alongNext (p : Char → Bool) : Text → List Bool → List Bool
  | [], _ => [false]
  | c :: t, marks => (p c && marks.tail.headD false) :: alongNext p t marks.tail

/-- Whether the tokens match, for each suffix of the text. -/
def verdicts (ts : List Token) (t : Text) : List Bool :=
  match ts with
  | [] => along List.isEmpty t
  | .anySequence :: ts => alongSuffixes (verdicts ts t)
  | .anyComponents :: ts =>
    let marks := verdicts ts t
    marks.zipWith (· || ·) (alongComponents t marks)
  | .char a :: ts => alongNext (a == ·) t (verdicts ts t)
  | .anyChar :: ts => alongNext (fun _ => true) t (verdicts ts t)
  | .oneOf rs :: ts => alongNext (inRange · rs) t (verdicts ts t)
  | .noneOf rs :: ts => alongNext (!inRange · rs) t (verdicts ts t)

/-- The first mark is that of the whole text. -/
@[simp] theorem head?_along (p : Text → Bool) (t : Text) : (along p t).head? = some (p t) := by
  cases t <;> rfl

/-- The marks of shorter suffixes are found in one go. -/
theorem alongSuffixes_along (p : Text → Bool) (t : Text) :
    alongSuffixes (along p t) = along (anySuffix p) t := by
  induction t with
  | nil => simp [along, alongSuffixes, anySuffix]
  | cons c t ih => simp [along, alongSuffixes, anySuffix, ih]

theorem alongComponents_along (p : Text → Bool) (t : Text) :
    alongComponents t (along p t) = along (anyLaterComponent p) t := by
  induction t with
  | nil => rfl
  | cons c t ih => simp [along, alongComponents, anyLaterComponent, ih]

theorem alongNext_along (p : Char → Bool) (q : Text → Bool) (t : Text) :
    alongNext p t (along q t) = along (beginsWith p q) t := by
  induction t with
  | nil => rfl
  | cons c t ih => simp [along, alongNext, beginsWith, ih]

theorem zipWith_along (p q : Text → Bool) (t : Text) :
    (along p t).zipWith (· || ·) (along q t) = along (fun t => p t || q t) t := by
  induction t with
  | nil => rfl
  | cons c t ih => simp [along, ih]

/-- **The verdicts are those of the meaning**, on each suffix of the text. -/
theorem verdicts_eq (ts : List Token) (t : Text) : verdicts ts t = along (matchTokens ts) t := by
  induction ts with
  | nil => rfl
  | cons token ts ih =>
    cases token <;>
      simp only [verdicts, matchTokens, ih, alongSuffixes_along, alongComponents_along,
        alongNext_along, zipWith_along]

end Glob

/-- A pattern that can be read. -/
structure Glob where
  /-- What the pattern stands for, part by part. -/
  tokens : List Glob.Token
  deriving DecidableEq, Repr

namespace Glob

/-- The pattern that a text spells. -/
def ofText? (t : Text) : Option Glob :=
  (tokensFrom (.outside true) t).map Glob.mk

/-- Whether the pattern matches the whole text. -/
def admits (g : Glob) (t : Text) : Bool :=
  (verdicts g.tokens t).headD false

/-- What the glob that a text spells tests other texts for; none if the text spells no glob. -/
def test? (t : Text) : Option (Text → Bool) :=
  (ofText? t).map admits

/-- **A pattern matches a text as its tokens say.** -/
theorem admits_eq (g : Glob) (t : Text) : g.admits t = matchTokens g.tokens t := by
  simp [admits, verdicts_eq]

end Glob

end ImportXref

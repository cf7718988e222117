import ImportXref.Text.Blank
import ImportXref.Text.Letter

/-!
# Patterns — the regular expressions that a filter may ask a value to match

No value is ever matched here: what counts is which texts are patterns at all, `isPattern`.  A
pattern is read from the front, and all that is kept of a part is how deeply it is nested, for
patterns may be nested at most `maxNesting` deep.

A pattern stands inside braces, so no brace that opens in it is closed there; repetitions with a
count and names or numbers in braces are therefore no patterns.  Word boundaries between letters
of all scripts are not supported, and what matches bytes must not leave ASCII.
-/

namespace ImportXref.Pattern

/-- How deeply a pattern may be nested. -/
def maxNesting : Nat := 250

/-- How what follows is read. -/
structure Mode where
  /-- Whether blanks and comments are passed over. -/
  verbose : Bool
  /-- Whether characters are matched; else bytes are. -/
  unicode : Bool
  deriving DecidableEq, Repr

/-- The mode at the start of a pattern. -/
def Mode.initial : Mode := ⟨false, true⟩

/-- The text without the blanks and comments at its front.  A comment ends with its line. -/
def skipFrom (inComment : Bool) : Text → Text
  | [] => []
  | c :: t =>
    if inComment then skipFrom (c != '\n') t
    else if isBlank c then skipFrom false t
    else if c = '#' then skipFrom true t
    else c :: t

/-- The text from where reading goes on. -/
def Mode.skip (m : Mode) (t : Text) : Text :=
  if m.verbose then skipFrom false t else t

/-- The nesting of several parts that stand side by side. -/
def nestingOf : List Nat → Nat
  | [] => 0
  | [n] => n
  | ns => ns.foldl max 0 + 1

/-! ### Single characters and escape sequences -/

/-- What matches one character or a place between characters. -/
inductive Atom where
  /-- The character itself; `asByte` if it is written as the number of a byte. -/
  | literal (c : Char) (asByte : Bool)
  /-- A digit, blank or word character, or any other than these. -/
  | shorthand (negated : Bool)
  /-- A character of a general category. -/
  | category
  /-- The start or the end of the text. -/
  | anchor
  /-- A place by its relation to the words around it. -/
  | wordBoundary
  deriving DecidableEq, Repr

/-- Whether the atom is supported outside of character classes. -/
def Atom.isSupported (m : Mode) : Atom → Bool
  | literal c asByte => m.unicode || !asByte || c.toNat < 0x80
  | shorthand negated => m.unicode || !negated
  | category => m.unicode
  | anchor => true
  | wordBoundary => !m.unicode

/-- The value of a hexadecimal digit. -/
def hexValue? (c : Char) : Option Nat :=
  if '0' ≤ c && c ≤ '9' then some (c.toNat - '0'.toNat)
  else if 'a' ≤ c && c ≤ 'f' then some (c.toNat - 'a'.toNat + 10)
  else if 'A' ≤ c && c ≤ 'F' then some (c.toNat - 'A'.toNat + 10)
  else none

/-- Reads `digits` hexadecimal digits after the value `n` of those before them. -/
def hexNumber? (m : Mode) : Nat → Nat → Text → Option (Nat × Text)
  | 0, n, t => some (n, m.skip t)
  | digits + 1, n, t =>
    match m.skip t with
    | [] => none
    | c :: rest =>
      match hexValue? c with
      | none => none
      | some d => hexNumber? m digits (16 * n + d) rest

/-- Reads the number of a character in so many digits. -/
def numbered? (m : Mode) (digits : Nat) (asByte : Bool) (t : Text) : Option (Atom × Text) :=
  match hexNumber? m digits 0 t with
  | none => none
  | some (n, rest) =>
    if n.isValidChar then some (.literal (Char.ofNat n) asByte, rest) else none

/-- Reads the letter of a general category. -/
def category? (m : Mode) (t : Text) : Option (Atom × Text) :=
  match m.skip t with
  | [] => none
  | c :: rest =>
    if ['c', 'l', 'm', 'n', 'p', 's', 'z'].contains c.toLower then
      some (.category, m.skip rest)
    else none

/-- Reads what follows a backslash. -/
def escape? (m : Mode) : Text → Option (Atom × Text)
  | [] => none
  | c :: t =>
    match c with
    | 'x' => numbered? m 2 true t
    | 'u' => numbered? m 4 false t
    | 'U' => numbered? m 8 false t
    | 'p' | 'P' => category? m t
    | 'd' | 's' | 'w' => some (.shorthand false, t)
    | 'D' | 'S' | 'W' => some (.shorthand true, t)
    | 'a' => some (.literal '\x07' false, t)
    | 'f' => some (.literal '\x0c' false, t)
    | 't' => some (.literal '\t' false, t)
    | 'n' => some (.literal '\n' false, t)
    | 'r' => some (.literal '\r' false, t)
    | 'v' => some (.literal '\x0b' false, t)
    | 'A' | 'z' => some (.anchor, t)
    | 'b' | 'B' | '<' | '>' => some (.wordBoundary, t)
    | c => if c.toNat < 0x80 && !c.isAlphanum then some (.literal c false, t) else none

/-! ### Character classes -/

/-- What is kept of a set of characters. -/
structure CharacterSet where
  /-- How deeply it is nested. -/
  nesting : Nat
  /-- Whether the bytes beyond ASCII are in it, if it is a set of bytes. -/
  beyondAscii : Bool

/-- How two sets are combined. -/
inductive SetOperation where
  | intersection
  | difference
  | symmetricDifference

namespace CharacterSet

/-- A set without nesting. -/
def flat (beyondAscii : Bool) : CharacterSet :=
  ⟨0, beyondAscii⟩

/-- The union of sets that stand side by side. -/
def union (sets : List CharacterSet) : CharacterSet :=
  ⟨nestingOf (sets.map nesting), sets.any beyondAscii⟩

/-- Two sets combined. -/
def combine (op : SetOperation) (a b : CharacterSet) : CharacterSet :=
  ⟨nestingOf [a.nesting, b.nesting], match op with
    | .intersection => a.beyondAscii && b.beyondAscii
    | .difference => a.beyondAscii && !b.beyondAscii
    | .symmetricDifference => a.beyondAscii != b.beyondAscii⟩

end CharacterSet

/-- A class that has been read in part. -/
structure OpenClass where
  /-- Whether it stands for the characters outside. -/
  negated : Bool
  /-- Whether only hyphens have been read, which are members at the front. -/
  leading : Bool
  /-- What the members are to be combined with. -/
  left : Option (CharacterSet × SetOperation)
  /-- The members so far, the last first. -/
  members : List CharacterSet

namespace OpenClass

/-- The set that has been read. -/
def contents (k : OpenClass) : CharacterSet :=
  match k.left with
  | none => .union k.members
  | some (left, op) => left.combine op (.union k.members)

/-- The class with one more member. -/
def add (k : OpenClass) (s : CharacterSet) : OpenClass :=
  { k with leading := false, members := s :: k.members }

/-- The class with one more hyphen at its front. -/
def addHyphen (k : OpenClass) : OpenClass :=
  { k.add (.flat false) with leading := true }

/-- The class after the sign of an operation. -/
def operate (k : OpenClass) (op : SetOperation) : OpenClass :=
  ⟨k.negated, false, some (k.contents, op), []⟩

/-- The finished class, unless it is a set of bytes beyond ASCII. -/
def close? (m : Mode) (k : OpenClass) : Option CharacterSet :=
  if m.unicode || k.contents.beyondAscii == k.negated then some ⟨k.contents.nesting + 1, false⟩
  else none

end OpenClass

/-- The names of classes of ASCII characters. -/
def asciiClasses : List String :=
  ["alnum", "alpha", "ascii", "blank", "cntrl", "digit", "graph", "lower", "print", "punct",
    "space", "upper", "word", "xdigit"]

/-- Reads the name of a class of ASCII characters up to its closing bracket. -/
def asciiName? (t : Text) : Option Text :=
  let name := t.takeWhile (· != ':')
  match t.drop name.length with
  | ':' :: ']' :: rest => if asciiClasses.contains (String.ofList name) then some rest else none
  | _ => none

/-- Reads a named class after its opening bracket. -/
def asciiClass? : Text → Option (CharacterSet × Text)
  | ':' :: '^' :: t => (asciiName? t).map (.flat true, ·)
  | ':' :: t => (asciiName? t).map (.flat false, ·)
  | _ => none

/-- The start of a class after its opening bracket. -/
def openClass (m : Mode) (t : Text) : OpenClass × Text :=
  match m.skip t with
  | '^' :: rest => (⟨true, true, none, []⟩, rest)
  | rest => (⟨false, true, none, []⟩, rest)

/-- Reads a member of a class or an end of a range. -/
def classAtom? (m : Mode) : Text → Option (Atom × Text)
  | [] => none
  | '\\' :: t => escape? m t
  | c :: t => some (.literal c false, t)

/-- The next character that is neither blank nor the sign of a comment. -/
def peek (m : Mode) (t : Text) : Option Char :=
  if m.verbose then
    let ahead := match t.dropWhile isBlank with
      | '#' :: rest => rest.dropWhile isBlank
      | rest => rest
    ahead.head?.or t.head?
  else t.head?

/-- The character of an atom, if it can be a member of a class. -/
def literal? (m : Mode) : Atom → Option Char
  | .literal c _ => if m.unicode || c.toNat < 0x80 then some c else none
  | _ => none

/-- Whether an atom can be a member of a class. -/
def isMember (m : Mode) (a : Atom) : Bool :=
  match a with
  | .literal .. => (literal? m a).isSome
  | .shorthand _ | .category => a.isSupported m
  | .anchor | .wordBoundary => false

/-- Reads what follows a member of a class: nothing more of it, or the other end of a range. -/
def rangeAfter? (m : Mode) (first : Atom) (t : Text) : Option Text :=
  match t with
  | '-' :: rest =>
    if peek m rest = some ']' || peek m rest = some '-' then
      if isMember m first then some t else none
    else do
      let (last, rest) ← classAtom? m (m.skip rest)
      let a ← literal? m first
      let b ← literal? m last
      if a ≤ b then some rest else none
  | _ => if isMember m first then some t else none

/-- Reads classes from inside the class `k`, which stands inside `outer`; the nesting of the
outermost one and what follows it are given. -/
def classFrom (m : Mode) : Nat → List OpenClass → OpenClass → Text → Option (Nat × Text)
  | 0, _, _, _ => none
  | fuel + 1, outer, k, t =>
    match m.skip t with
    | [] => none
    | '[' :: t =>
      match asciiClass? t with
      | some (s, rest) => classFrom m fuel outer (k.add s) rest
      | none =>
        let (inner, rest) := openClass m t
        classFrom m fuel (k :: outer) inner rest
    | ']' :: t =>
      if k.leading && k.members.isEmpty then classFrom m fuel outer (k.add (.flat false)) t
      else
        match k.close? m, outer with
        | none, _ => none
        | some s, [] => some (s.nesting, t)
        | some s, k :: outer => classFrom m fuel outer (k.add s) t
    | c :: t =>
      if c = '-' && k.leading then classFrom m fuel outer k.addHyphen t
      else
        match c, t with
        | '&', '&' :: t => classFrom m fuel outer (k.operate .intersection) t
        | '-', '-' :: t => classFrom m fuel outer (k.operate .difference) t
        | '~', '~' :: t => classFrom m fuel outer (k.operate .symmetricDifference) t
        | c, t =>
          match classAtom? m (c :: t) with
          | none => none
          | some (first, rest) =>
            match rangeAfter? m first (m.skip rest) with
            | none => none
            | some rest => classFrom m fuel outer (k.add (.flat false)) rest

/-- Reads a class after its opening bracket. -/
def class? (m : Mode) (t : Text) : Option (Nat × Text) :=
  let (k, rest) := openClass m t
  classFrom m (t.length + 1) [] k rest

/-! ### Groups -/

/-- What an opening parenthesis begins. -/
inductive Opening where
  /-- A group, its mode, and its name if it has one. -/
  | group (m : Mode) (name : Option Text)
  /-- No group, but a mode for what follows. -/
  | change (m : Mode)

/-- Whether a list of flags asks for one, if it says so. -/
def flag? (flags : Text) (c : Char) : Option Bool :=
  if (flags.takeWhile (· != '-')).contains c then some true
  else if flags.contains c then some false
  else none

/-- A list of flags names each flag once and has no hyphen at its end. -/
def areFlags (flags : Text) : Bool :=
  flags.all (['i', 'm', 's', 'U', 'u', 'R', 'x', '-'].contains ·) &&
    flags.eraseDups.length == flags.length && flags.getLast? != some '-'

/-- The mode after flags. -/
def Mode.change (m : Mode) (flags : Text) : Mode :=
  ⟨(flag? flags 'x').getD m.verbose, (flag? flags 'u').getD m.unicode⟩

/-- Reads flags after their question mark. -/
def flags? (m : Mode) (t : Text) : Option (Opening × Text) :=
  let flags := t.takeWhile fun c => c != ':' && c != ')'
  if areFlags flags then
    match t.drop flags.length with
    | ':' :: rest => some (.group (m.change flags) none, rest)
    | ')' :: rest => if flags = [] then none else some (.change (m.change flags), rest)
    | _ => none
  else none

/-- Whether a text can be the name of a group. -/
def isGroupName : Text → Bool
  | [] => false
  | c :: t =>
    (c = '_' || isLetter c) &&
      t.all fun c => c = '_' || c = '.' || c = '[' || c = ']' || isLetterOrNumber c

/-- Reads the name of a group after its opening bracket; it must be new. -/
def name? (m : Mode) (names : List Text) (t : Text) : Option (Opening × Text) :=
  let name := t.takeWhile (· != '>')
  match t.drop name.length with
  | [] => none
  | _ :: rest =>
    if isGroupName name && !names.contains name then some (.group m (some name), rest) else none

/-- Reads what follows an opening parenthesis. -/
def opening? (m : Mode) (names : List Text) (t : Text) : Option (Opening × Text) :=
  match m.skip t with
  | '?' :: 'P' :: '<' :: t => name? m names t
  | '?' :: '<' :: t => name? m names t
  | '?' :: t => flags? m t
  | t => some (.group m none, t)

/-- A group that has been read in part. -/
structure OpenGroup where
  /-- How what follows is read. -/
  mode : Mode
  /-- The nestings of the finished alternatives, the last first. -/
  alternatives : List Nat
  /-- The nestings of the parts of the current alternative, the last first; none for a change of
  mode. -/
  parts : List (Option Nat)

namespace OpenGroup

/-- The group with one more part. -/
def add (g : OpenGroup) (nesting : Nat) : OpenGroup :=
  { g with parts := some nesting :: g.parts }

/-- The nesting of the current alternative. -/
def current (g : OpenGroup) : Nat :=
  nestingOf (g.parts.map (·.getD 0))

/-- The nesting of what has been read. -/
def nesting (g : OpenGroup) : Nat :=
  nestingOf (g.current :: g.alternatives)

/-- The group after the sign of an alternative. -/
def alternate (g : OpenGroup) : OpenGroup :=
  ⟨g.mode, g.current :: g.alternatives, []⟩

/-- The group with its last part repeated. -/
def repeat? (g : OpenGroup) : Option OpenGroup :=
  match g.parts with
  | some n :: parts => some { g with parts := some (n + 1) :: parts }
  | _ => none

end OpenGroup

/-- Whether the character repeats what stands before it. -/
def isRepetition (c : Char) : Bool :=
  c = '?' || c = '*' || c = '+'

/-- Reads a pattern from inside the group `g`, which stands inside `outer`, after groups with the
given names; the nesting of the whole pattern is given. -/
def nestingFrom? : Nat → List Text → List OpenGroup → OpenGroup → Text → Option Nat
  | 0, _, _, _, _ => none
  | fuel + 1, names, outer, g, t =>
    match g.mode.skip t with
    | [] => if outer.isEmpty then some g.nesting else none
    | '(' :: t =>
      match opening? g.mode names t with
      | none => none
      | some (.change m, rest) =>
        nestingFrom? fuel names outer ⟨m, g.alternatives, none :: g.parts⟩ rest
      | some (.group m name, rest) =>
        nestingFrom? fuel (name.toList ++ names) (g :: outer) ⟨m, [], []⟩ rest
    | ')' :: t =>
      match outer with
      | [] => none
      | o :: outer => nestingFrom? fuel names outer (o.add (g.nesting + 1)) t
    | '|' :: t => nestingFrom? fuel names outer g.alternate t
    | '[' :: t =>
      match class? g.mode t with
      | none => none
      | some (n, rest) => nestingFrom? fuel names outer (g.add n) rest
    | '\x7b' :: _ => none
    | '\\' :: t =>
      match escape? g.mode t with
      | none => none
      | some (a, rest) =>
        if a.isSupported g.mode then nestingFrom? fuel names outer (g.add 0) rest else none
    | '.' :: t => if g.mode.unicode then nestingFrom? fuel names outer (g.add 0) t else none
    | c :: t =>
      if isRepetition c then
        match g.repeat? with
        | none => none
        | some g => nestingFrom? fuel names outer g (match t with | '?' :: t => t | t => t)
      else nestingFrom? fuel names outer (g.add 0) t

/-- The nesting of a pattern; none if the text is no pattern. -/
def nesting? (t : Text) : Option Nat :=
  nestingFrom? (t.length + 1) [] [] ⟨.initial, [], []⟩ t

/-- Whether the text is a pattern. -/
def isPattern (t : Text) : Bool :=
  match nesting? t with
  | some n => n ≤ maxNesting
  | none => false

/-! ### Numbers -/

/-- Digits, with or without a sign in front. -/
def isExponent (t : Text) : Bool :=
  let digits := match t with
    | '+' :: t => t
    | '-' :: t => t
    | t => t
  !digits.isEmpty && digits.all Char.isDigit

/-- A number without sign: digits with or without a point among them and an exponent after them,
or the word for no finite number. -/
def isNumeral (t : Text) : Bool :=
  let whole := t.takeWhile Char.isDigit
  let (fraction, rest) := match t.drop whole.length with
    | '.' :: t => (t.takeWhile Char.isDigit, t.dropWhile Char.isDigit)
    | t => ([], t)
  (!(whole ++ fraction).isEmpty && match rest with
    | [] => true
    | c :: t => (c = 'e' || c = 'E') && isExponent t) ||
  ["inf", "infinity", "nan"].contains (String.ofList (t.map Char.toLower))

/-- Whether a value can be asked for by the text: a number or a pattern. -/
def isCondition (t : Text) : Bool :=
  isPattern t || match t with
    | '+' :: t => isNumeral t
    | t => isNumeral t

end ImportXref.Pattern

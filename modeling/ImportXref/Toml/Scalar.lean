import ImportXref.Toml.Item

/-!
# TOML scalars — strings, numbers, dates and times

Each reader takes a scalar from the front of a text and gives the rest.  Line ends are single line
feeds here, so a carriage return belongs to nothing.
-/

namespace ImportXref.Toml

/-- A character that may stand in a string or a comment: no control character but the tab. -/
def isPlain (c : Char) : Bool :=
  c = '\t' || (0x20 ≤ c.toNat && c.toNat ≠ 0x7F)

/-- A space or a tab. -/
def isGap (c : Char) : Bool :=
  c = ' ' || c = '\t'

/-- The text without spaces and tabs in front. -/
def skipGap (t : Text) : Text :=
  t.dropWhile isGap

/-- Puts characters in front of a text that is read. -/
def prepend (s : Text) (r : Option (Text × Text)) : Option (Text × Text) :=
  r.map fun (t, rest) => (s ++ t, rest)

/-! ### Strings -/

/-- The value of a hexadecimal digit. -/
def hexValue? (c : Char) : Option Nat :=
  if '0' ≤ c ∧ c ≤ '9' then some (c.toNat - 48)
  else if 'a' ≤ c ∧ c ≤ 'f' then some (c.toNat - 87)
  else if 'A' ≤ c ∧ c ≤ 'F' then some (c.toNat - 55)
  else none

/-- The character whose number the digits spell. -/
def hexChar? (digits : Text) : Option Char := do
  let values ← digits.mapM hexValue?
  let n := values.foldl (fun n d => 16 * n + d) 0
  if n.isValidChar then some (Char.ofNat n) else none

/-- The character that a letter after a backslash stands for. -/
def escaped? (c : Char) : Option Char :=
  match c with
  | 'b' => some '\x08'
  | 't' => some '\t'
  | 'n' => some '\n'
  | 'f' => some '\x0c'
  | 'r' => some '\r'
  | '"' => some '"'
  | '\\' => some '\\'
  | _ => none

/-- The rest of a string after its opening quote. -/
def quotedRest : Text → Option (Text × Text)
  | [] => none
  | '"' :: t => some ([], t)
  | '\\' :: 'u' :: a :: b :: c :: d :: t =>
    (hexChar? [a, b, c, d]).bind fun x => prepend [x] (quotedRest t)
  | '\\' :: 'U' :: a :: b :: c :: d :: e :: f :: g :: h :: t =>
    (hexChar? [a, b, c, d, e, f, g, h]).bind fun x => prepend [x] (quotedRest t)
  | '\\' :: c :: t => (escaped? c).bind fun x => prepend [x] (quotedRest t)
  | c :: t => if isPlain c then prepend [c] (quotedRest t) else none

/-- The rest of a literal string after its opening apostrophe. -/
def literalRest : Text → Option (Text × Text)
  | [] => none
  | '\'' :: t => some ([], t)
  | c :: t => if isPlain c then prepend [c] (literalRest t) else none

/-- Where the reader of a string over several lines stands. -/
inductive LineMode where
  /-- In the text. -/
  | inText
  /-- After a backslash and spaces: a line feed must follow. -/
  | atLineEnd
  /-- After a backslash at the end of a line: blanks are skipped. -/
  | skipping
  deriving DecidableEq

/-- The rest of a string over several lines after its three opening quotes.  Up to two quotes may
stand just before the three closing ones. -/
def blockRest : LineMode → Text → Option (Text × Text)
  | _, [] => none
  | .atLineEnd, c :: t =>
    if c = '\n' then blockRest .skipping t
    else if isGap c then blockRest .atLineEnd t
    else none
  | _, '"' :: '"' :: '"' :: '"' :: '"' :: t => some (['"', '"'], t)
  | _, '"' :: '"' :: '"' :: '"' :: t => some (['"'], t)
  | _, '"' :: '"' :: '"' :: t => some ([], t)
  | _, '\\' :: 'u' :: a :: b :: c :: d :: t =>
    (hexChar? [a, b, c, d]).bind fun x => prepend [x] (blockRest .inText t)
  | _, '\\' :: 'U' :: a :: b :: c :: d :: e :: f :: g :: h :: t =>
    (hexChar? [a, b, c, d, e, f, g, h]).bind fun x => prepend [x] (blockRest .inText t)
  | _, '\\' :: c :: t =>
    if c = '\n' then blockRest .skipping t
    else if isGap c then blockRest .atLineEnd t
    else (escaped? c).bind fun x => prepend [x] (blockRest .inText t)
  | mode, c :: t =>
    if mode = .skipping && (c = '\n' || isGap c) then blockRest .skipping t
    else if c = '\n' || isPlain c then prepend [c] (blockRest .inText t)
    else none

/-- The rest of a literal string over several lines after its three opening apostrophes. -/
def literalBlockRest : Text → Option (Text × Text)
  | [] => none
  | '\'' :: '\'' :: '\'' :: '\'' :: '\'' :: t => some (['\'', '\''], t)
  | '\'' :: '\'' :: '\'' :: '\'' :: t => some (['\''], t)
  | '\'' :: '\'' :: '\'' :: t => some ([], t)
  | c :: t => if c = '\n' || isPlain c then prepend [c] (literalBlockRest t) else none

/-- A string in any of its four forms.  A line feed just after three opening marks does not
count. -/
def string : Text → Option (Text × Text)
  | '"' :: '"' :: '"' :: '\n' :: t => blockRest .inText t
  | '"' :: '"' :: '"' :: t => blockRest .inText t
  | '"' :: t => quotedRest t
  | '\'' :: '\'' :: '\'' :: '\n' :: t => literalBlockRest t
  | '\'' :: '\'' :: '\'' :: t => literalBlockRest t
  | '\'' :: t => literalRest t
  | _ => none

/-! ### Numbers -/

/-- The value of digits in a base. -/
def digitsValue (base : Nat) (digits : Text) : Nat :=
  digits.foldl (fun n c => base * n + (hexValue? c).getD 0) 0

/-- Further digits; an underscore may stand between two of them. -/
def moreDigits (isDigit : Char → Bool) : Text → Text × Text
  | [] => ([], [])
  | '_' :: c :: t =>
    if isDigit c then
      let (ds, rest) := moreDigits isDigit t
      (c :: ds, rest)
    else ([], '_' :: c :: t)
  | c :: t =>
    if isDigit c then
      let (ds, rest) := moreDigits isDigit t
      (c :: ds, rest)
    else ([], c :: t)

/-- At least one digit. -/
def digits (isDigit : Char → Bool) : Text → Option (Text × Text)
  | [] => none
  | c :: t =>
    if isDigit c then
      let (ds, rest) := moreDigits isDigit t
      some (c :: ds, rest)
    else none

/-- A sign, if there is one: whether it is a minus, and the rest. -/
def sign : Text → Bool × Text
  | '+' :: t => (false, t)
  | '-' :: t => (true, t)
  | t => (false, t)

/-- The digits of a whole number without leading zeros. -/
def wholeDigits : Text → Option (Text × Text)
  | '0' :: t => some (['0'], t)
  | t => digits Char.isDigit t

/-- The least number that is too large for an integer. -/
def integerLimit : Nat := 0x8000000000000000

/-- A whole number in the base that its first characters announce. -/
def based (base : Nat) (isDigit : Char → Bool) (t : Text) : Option (Int × Text) := do
  let (ds, rest) ← digits isDigit t
  let n := digitsValue base ds
  if n < integerLimit then some (n, rest) else none

/-- An integer. -/
def integer : Text → Option (Int × Text)
  | '0' :: 'x' :: t => based 16 (fun c => (hexValue? c).isSome) t
  | '0' :: 'o' :: t => based 8 (fun c => '0' ≤ c && c ≤ '7') t
  | '0' :: 'b' :: t => based 2 (fun c => c = '0' || c = '1') t
  | t => do
    let (negative, t) := sign t
    let (ds, rest) ← wholeDigits t
    let n := digitsValue 10 ds
    if negative then if n ≤ integerLimit then some (-n, rest) else none
    else if n < integerLimit then some (n, rest) else none

/-- The exponent of a number: its value and the rest. -/
def exponent : Text → Option (Int × Text)
  | c :: t =>
    if c = 'e' || c = 'E' then do
      let (negative, t) := sign t
      let (ds, rest) ← digits Char.isDigit t
      let n : Int := digitsValue 10 ds
      some (if negative then -n else n, rest)
    else none
  | [] => none

/-- Whether `m · 10 ^ e` is too large for a number of 64 bits: it is nearer to 2 ^ 1024 than to
the largest such number, or as near. -/
def overflows (m : Text) (e : Int) : Bool :=
  let n := digitsValue 10 m
  if n = 0 then false
  else if e > 400 then true
  else if e + m.length < 300 then false
  else
    let bound := Nat.pow 2 1024 - Nat.pow 2 970
    if e ≥ 0 then bound ≤ n * Nat.pow 10 e.toNat else bound * Nat.pow 10 (-e).toNat ≤ n

/-- The fraction of a number: its digits and the rest. -/
def fraction : Text → Option (Text × Text)
  | '.' :: t => digits Char.isDigit t
  | _ => none

/-- A number with a fraction, an exponent or both. -/
def decimal (t : Text) : Option (Scalar × Text) := do
  let (negative, afterSign) := sign t
  let (whole, rest) ← wholeDigits afterSign
  let (part, e, rest) ← match fraction rest with
    | some (part, rest) =>
      match exponent rest with
      | some (e, rest) => some (part, e, rest)
      | none => some (part, 0, rest)
    | none => (exponent rest).map fun (e, rest) => ([], e, rest)
  if !negative && overflows (whole ++ part) (e - part.length) then none
  else some (.float (t.take (t.length - rest.length)), rest)

/-- An infinity or no number at all. -/
def special (t : Text) : Option (Scalar × Text) :=
  match (sign t).2 with
  | 'i' :: 'n' :: 'f' :: rest => some (.float (t.take (t.length - rest.length)), rest)
  | 'n' :: 'a' :: 'n' :: rest => some (.float (t.take (t.length - rest.length)), rest)
  | _ => none

/-! ### Dates and times -/

/-- Two digits that spell a number between two bounds. -/
def twoDigits (lo hi : Nat) : Text → Option (Nat × Text)
  | a :: b :: t =>
    let n := digitsValue 10 [a, b]
    if a.isDigit && b.isDigit && lo ≤ n && n ≤ hi then some (n, t) else none
  | _ => none

/-- The number of days in a month. -/
def daysIn (year month : Nat) : Nat :=
  if month = 2 then
    if year % 4 = 0 && (year % 100 ≠ 0 || year % 400 = 0) then 29 else 28
  else if month = 4 || month = 6 || month = 9 || month = 11 then 30
  else 31

/-- A date; the rest is given. -/
def date : Text → Option Text
  | a :: b :: c :: d :: '-' :: t => do
    if !([a, b, c, d].all Char.isDigit) then none
    else
      let (month, t) ← twoDigits 1 12 t
      match t with
      | '-' :: t =>
        let (_, rest) ← twoDigits 1 (daysIn (digitsValue 10 [a, b, c, d]) month) t
        some rest
      | _ => none
  | _ => none

/-- A time of day; the rest is given. -/
def time (t : Text) : Option Text := do
  let (_, t) ← twoDigits 0 23 t
  match t with
  | ':' :: t =>
    let (_, t) ← twoDigits 0 59 t
    match t with
    | ':' :: t =>
      let (_, t) ← twoDigits 0 60 t
      match t with
      | '.' :: f =>
        match f.takeWhile Char.isDigit with
        | [] => none
        | _ => some (f.dropWhile Char.isDigit)
      | _ => some t
    | _ => none
  | _ => none

/-- What follows the difference from universal time, if there is one. -/
def afterOffset (t : Text) : Text :=
  match t with
  | 'Z' :: rest => rest
  | 'z' :: rest => rest
  | c :: rest =>
    if c = '+' || c = '-' then
      match twoDigits 0 23 rest with
      | some (_, ':' :: rest) =>
        match twoDigits 0 59 rest with
        | some (_, rest) => rest
        | none => t
      | _ => t
    else t
  | [] => t

/-- What follows the time that goes with a date, if there is one. -/
def afterTime (t : Text) : Text :=
  match t with
  | c :: rest =>
    if c = 'T' || c = 't' || c = ' ' then
      match time rest with
      | some rest => afterOffset rest
      | none => t
    else t
  | [] => t

/-- A date, a time or both. -/
def dateTime (t : Text) : Option (Scalar × Text) := do
  let rest ← match date t with
    | some rest => some (afterTime rest)
    | none => time t
  some (.dateTime (t.take (t.length - rest.length)), rest)

/-! ### All scalars -/

/-- The first reading that succeeds. -/
def firstReading {α : Type} (readers : List (Text → Option (α × Text))) (t : Text) :
    Option (α × Text) :=
  readers.findSome? (· t)

/-- A word that spells a truth value. -/
def boolean : Text → Option (Scalar × Text)
  | 't' :: 'r' :: 'u' :: 'e' :: rest => some (.boolean true, rest)
  | 'f' :: 'a' :: 'l' :: 's' :: 'e' :: rest => some (.boolean false, rest)
  | _ => none

/-- A scalar of any kind. -/
def scalar (t : Text) : Option (Scalar × Text) :=
  firstReading
    [fun t => (string t).map fun (s, rest) => (.text s, rest), boolean, dateTime, decimal, special,
      fun t => (integer t).map fun (n, rest) => (.integer n, rest)] t

end ImportXref.Toml

import ImportXref.CommandLine.Pattern
import ImportXref.Event
import ImportXref.Text.Order
import ImportXref.Text.Utf8

/-!
# Directives — which events are shown up to which level

A directive is written as a level, as the start of an origin, or as both with an equals sign
between them.  Between the origin and the equals sign, brackets may ask for a span and, in braces
inside them, for a named value of the event.  No event stands in a span and no value is compared,
so a directive that asks for either shows nothing; but it must be well formed.

Blanks around a directive are passed over to tell its parts apart, but the parts themselves are
counted from its front in bytes, the blanks included.  A part may therefore begin or end inside a
character, and then the directive cannot be read at all.

* `Directive.fits`: the events that a directive is about;
* `Directive.outranks`: which of two directives decides.
-/

namespace ImportXref

/-- The number of a level, the most important first. -/
def Level.number : Level → Nat
  | .error => 1
  | .warn => 2
  | .info => 3
  | .debug => 4
  | .trace => 5

/-- A named value that a directive asks for. -/
structure FieldCondition where
  /-- The name. -/
  name : Text
  /-- What the value must be, if it matters. -/
  value : Option Text
  deriving DecidableEq, Repr

/-- Shows some events up to a level. -/
structure Directive where
  /-- What the origin starts with, if it matters. -/
  origin : Option Text
  /-- Whether the event must stand in a certain span. -/
  inSpan : Bool
  /-- What the values must be like, if it matters. -/
  field : Option FieldCondition
  /-- The number of the last level that is shown. -/
  level : Nat
  deriving DecidableEq, Repr

/-- Why a directive cannot be read. -/
inductive DirectiveError where
  /-- It is no directive. -/
  | malformed
  /-- A part of it begins or ends inside a character. -/
  | cutCharacter
  deriving DecidableEq, Repr

namespace Directive

/-! ### What a directive shows -/

/-- Whether the directive is about the event. -/
def fits (d : Directive) (e : Event) : Bool :=
  !d.inSpan &&
    (match d.origin with
      | none => true
      | some start => start.isPrefixOf e.origin.toList) &&
    match d.field with
    | none => true
    | some field =>
      field.value.isNone && (e.filterNames.map String.toList).contains field.name

/-- How much of the origin matters: nothing, or so many bytes and one more. -/
def reach (d : Directive) : Nat :=
  match d.origin with
  | none => 0
  | some start => start.utf8.length + 1

/-- The origin as far as it matters. -/
def originText (d : Directive) : Text :=
  d.origin.getD []

/-- The name of the value that matters. -/
def fieldName (d : Directive) : Text :=
  match d.field with
  | none => []
  | some field => field.name

/-- Whether `d` decides where both fit: the one with more of the origin, then the one that asks
for a value, then the one whose origin and whose name come last in the order of texts. -/
def outranks (d e : Directive) : Bool :=
  if d.reach ≠ e.reach then e.reach < d.reach
  else if d.field.isSome ≠ e.field.isSome then d.field.isSome
  else if d.originText ≠ e.originText then e.originText.precedes d.originText
  else e.fieldName.precedes d.fieldName

/-! ### Parts of a directive -/

/-- Whether no character begins before a byte and ends after it. -/
def isBoundary (bytes : Bytes) (n : Nat) : Bool :=
  match bytes.drop n with
  | [] => true
  | b :: _ => b < 0x80 || 0xC0 ≤ b

/-- The part of a text from one number of bytes to another. -/
def cut (t : Text) (start stop : Nat) : Except DirectiveError Text :=
  if isBoundary t.utf8 start && isBoundary t.utf8 stop then
    .ok (Bytes.text ((t.utf8.take stop).drop start))
  else .error .cutCharacter

/-- The number that digits spell, with or without a plus sign in front. -/
def number? (t : Text) : Option Nat :=
  let digits := match t with
    | '+' :: t => t
    | t => t
  if digits != [] && digits.all Char.isDigit then
    some (digits.foldl (fun n c => 10 * n + (c.toNat - '0'.toNat)) 0)
  else none

/-- The number of the level that a word or a number names. -/
def level? (t : Text) : Option Nat :=
  match number? t with
  | some n => if n ≤ 5 then some n else none
  | none =>
    match t.map Char.toLower with
    | ['o', 'f', 'f'] => some 0
    | ['e', 'r', 'r', 'o', 'r'] => some 1
    | ['w', 'a', 'r', 'n'] => some 2
    | ['i', 'n', 'f', 'o'] => some 3
    | ['d', 'e', 'b', 'u', 'g'] => some 4
    | ['t', 'r', 'a', 'c', 'e'] => some 5
    | _ => none

/-- The number of the level that is named from a byte on; everything is shown if none is. -/
def levelFrom (t : Text) (start : Nat) : Except DirectiveError Nat :=
  match cut t start t.utf8.length with
  | .error e => .error e
  | .ok [] => .ok 5
  | .ok word =>
    match level? word with
    | some n => .ok n
    | none => .error .malformed

/-- The named value that a text asks for.  What follows a second equals sign does not count. -/
def fieldOf (t : Text) : Except DirectiveError FieldCondition :=
  if t = [] then .error .malformed
  else
    let name := t.before '='
    match t.drop name.length with
    | [] => .ok ⟨name, none⟩
    | _ :: rest =>
      let value := Text.before '=' rest
      if Pattern.isCondition value then .ok ⟨name, some value⟩ else .error .malformed

/-! ### The whole directive -/

/-- A character that a directive may begin with, brackets apart. -/
def isStart (c : Char) : Bool :=
  c = '_' || c = ':' || c = '-' || isLetterOrNumber c

/-- Reads what follows the brackets: nothing or a level.  `rest` is what is left of the directive
without the blanks around it, and so many bytes of that stand before. -/
def afterBrackets (t : Text) (before : Nat) (d : Directive) (rest : Text) :
    Except DirectiveError Directive :=
  match rest with
  | [] => .ok d
  | '=' :: _ => (levelFrom t (before + 1)).map fun level => { d with level }
  | _ => .error .malformed

/-- Reads what follows an opening brace in the brackets. -/
def afterBrace (t : Text) (before : Nat) (d : Directive) (rest : Text) :
    Except DirectiveError Directive :=
  let field := rest.before '\x7d'
  let stop := before + field.utf8.length
  match rest.drop field.length with
  | [] => .error .malformed
  | _ :: rest =>
    match cut t before stop with
    | .error e => .error e
    | .ok text =>
      match fieldOf text with
      | .error e => .error e
      | .ok field =>
        match rest with
        | ']' :: rest => afterBrackets t (stop + 2) { d with field := some field } rest
        | _ => .error .malformed

/-- Reads what follows the opening bracket. -/
def afterBracket (t : Text) (before : Nat) (d : Directive) (rest : Text) :
    Except DirectiveError Directive :=
  let span := rest.takeWhile fun c => c != ']' && c != '\x7b'
  let stop := before + (Text.utf8 span).length
  match rest.drop span.length with
  | [] => .error .malformed
  | c :: rest =>
    match cut t before stop with
    | .error e => .error e
    | .ok _ =>
      if c = ']' then afterBrackets t (stop + 1) { d with inSpan := true } rest
      else afterBrace t (stop + 1) { d with inSpan := span != [] } rest

/-- The directive that a text spells. -/
def ofText (t : Text) : Except DirectiveError Directive :=
  match t.trim with
  | [] => .error .malformed
  | '[' :: rest => afterBracket t 1 ⟨none, false, none, 5⟩ rest
  | c :: body =>
    if isStart c then
      let name := (c :: body).takeWhile fun c => c != '=' && c != '['
      let stop := (Text.utf8 name).length
      match (c :: body).drop name.length with
      | [] =>
        match level? t with
        | some level => .ok ⟨none, false, none, level⟩
        | none => .ok ⟨some t, false, none, 5⟩
      | sign :: rest =>
        match cut t 0 stop with
        | .error e => .error e
        | .ok origin =>
          if sign = '=' then
            (levelFrom t (stop + 1)).map fun level => ⟨some origin, false, none, level⟩
          else afterBracket t (stop + 1) ⟨some origin, false, none, 5⟩ rest
    else .error .malformed

end Directive

end ImportXref

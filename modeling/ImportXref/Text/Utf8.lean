import ImportXref.Text.Basic

/-!
# UTF-8 — texts as bytes

`Text.utf8` encodes.  Decoding reads a byte string character by character; where the bytes are
not well formed, the longest start of a character that is not continued counts as one fault (and
a byte that starts no character is a fault of its own).  `Bytes.text` puts U+FFFD for each fault,
`Bytes.text?` refuses a byte string that has one.
-/

namespace ImportXref

/-- A byte string: the contents of a file, a path, the name of a directory entry. -/
abbrev Bytes := List UInt8

/-- The bytes of a text. -/
def Text.utf8 (t : Text) : Bytes :=
  t.flatMap String.utf8EncodeChar

namespace Bytes

/-- A character of several bytes that has been read in part. -/
structure Partial where
  /-- The bits read so far. -/
  bits : Nat
  /-- How many bytes are still to come after the next one. -/
  more : Nat
  /-- The least byte that may come next. -/
  lo : UInt8
  /-- The greatest byte that may come next. -/
  hi : UInt8

/-- What the first byte of a character is. -/
inductive Start where
  /-- A character of one byte. -/
  | single (c : Char)
  /-- The first byte of a longer character. -/
  | lead (p : Partial)
  /-- A byte that starts no character. -/
  | fault

/-- Reads a first byte.  The bounds on the second byte exclude overlong forms, surrogates and
numbers above 10FFFF. -/
def Start.ofByte (b : UInt8) : Start :=
  if b < 0x80 then .single (Char.ofNat b.toNat)
  else if b < 0xC2 then .fault
  else if b < 0xE0 then .lead ⟨b.toNat - 0xC0, 0, 0x80, 0xBF⟩
  else if b = 0xE0 then .lead ⟨0, 1, 0xA0, 0xBF⟩
  else if b = 0xED then .lead ⟨0xD, 1, 0x80, 0x9F⟩
  else if b < 0xF0 then .lead ⟨b.toNat - 0xE0, 1, 0x80, 0xBF⟩
  else if b = 0xF0 then .lead ⟨0, 2, 0x90, 0xBF⟩
  else if b < 0xF4 then .lead ⟨b.toNat - 0xF0, 2, 0x80, 0xBF⟩
  else if b = 0xF4 then .lead ⟨4, 2, 0x80, 0x8F⟩
  else .fault

/-- The characters of a byte string, `none` for each fault, after the part `p` of a character. -/
def decodeAfter : Option Partial → Bytes → List (Option Char)
  | none, [] => []
  | some _, [] => [none]
  | none, b :: bs =>
    match Start.ofByte b with
    | .single c => some c :: decodeAfter none bs
    | .lead p => decodeAfter (some p) bs
    | .fault => none :: decodeAfter none bs
  | some p, b :: bs =>
    if p.lo ≤ b ∧ b ≤ p.hi then
      let bits := p.bits * 64 + (b.toNat - 0x80)
      if p.more = 0 then some (Char.ofNat bits) :: decodeAfter none bs
      else decodeAfter (some ⟨bits, p.more - 1, 0x80, 0xBF⟩) bs
    else
      none :: match Start.ofByte b with
        | .single c => some c :: decodeAfter none bs
        | .lead q => decodeAfter (some q) bs
        | .fault => none :: decodeAfter none bs

/-- The characters of a byte string, `none` for each fault. -/
def decode (bs : Bytes) : List (Option Char) :=
  decodeAfter none bs

/-- The text of a byte string with U+FFFD for each fault. -/
def text (bs : Bytes) : Text :=
  (decode bs).map (·.getD '\uFFFD')

/-- The text of a byte string that has no fault. -/
def text? (bs : Bytes) : Option Text :=
  (decode bs).mapM id

end Bytes

end ImportXref

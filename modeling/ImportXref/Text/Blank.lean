import ImportXref.Text.Basic

/-!
# Blanks — the characters of the property `White_Space`

Twenty-five characters are blank, ASCII and other ones.  A text is trimmed of them at its front, at
its end or at both.
-/

namespace ImportXref

/-- The character has the property `White_Space`. -/
def isBlank (c : Char) : Bool :=
  (9 ≤ c.toNat && c.toNat ≤ 13) || c.toNat = 0x20 || c.toNat = 0x85 || c.toNat = 0xA0 ||
    c.toNat = 0x1680 || (0x2000 ≤ c.toNat && c.toNat ≤ 0x200A) || c.toNat = 0x2028 ||
    c.toNat = 0x2029 || c.toNat = 0x202F || c.toNat = 0x205F || c.toNat = 0x3000

namespace Text

/-- The text without its blanks at the front. -/
def trimStart (t : Text) : Text :=
  t.dropWhile isBlank

/-- The text without its blanks at the end. -/
def trimEnd (t : Text) : Text :=
  dropEndWhile isBlank t

/-- The text without its blanks at both ends. -/
def trim (t : Text) : Text :=
  trimEnd (trimStart t)

end Text

end ImportXref

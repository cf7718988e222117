import ImportXref.Text.Basic
import ImportXref.Text.Printable

/-!
# Quoted texts — how messages show a text

Between double quotes; a quote or a backslash after a backslash; line feed, carriage return, tab
and NUL as `\n`, `\r`, `\t`, `\0`; every other character that cannot be seen on its own as
`\u` with its hexadecimal number in braces.
-/

namespace ImportXref.Text

/-- One character of a quoted text. -/
def quotedChar (c : Char) : Text :=
  match c with
  | '"' => ['\\', '"']
  | '\\' => ['\\', '\\']
  | '\n' => ['\\', 'n']
  | '\r' => ['\\', 'r']
  | '\t' => ['\\', 't']
  | '\x00' => ['\\', '0']
  | c =>
    if isExtending c || isUnprintable c then ['\\', 'u', '\x7b'] ++ ofNatHex c.toNat ++ ['\x7d']
    else [c]

/-- The text in quotes. -/
def quoted (t : Text) : Text :=
  '"' :: t.flatMap quotedChar ++ ['"']

end ImportXref.Text

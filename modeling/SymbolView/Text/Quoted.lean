import SymbolView.Text.Printable

/-!
# Text in quotes

`quoted` writes a text so that all of it can be seen: between double quotes, with an escape for the
quote, the backslash, the usual control characters and every character that is not printable.
-/

set_option autoImplicit false

namespace SymbolView
namespace Text

/-- A character between double quotes. -/
def escapeUnprintable (c : Char) : List Char :=
  if c = '\x22' then ['\\', '\x22']
  else if c = '\\' then ['\\', '\\']
  else if c = '\n' then ['\\', 'n']
  else if c = '\r' then ['\\', 'r']
  else if c = '\t' then ['\\', 't']
  else if c = '\x00' then ['\\', '0']
  else if isPrintable c then [c]
  else ['\\', 'u', '\x7b'] ++ Nat.toDigits 16 c.toNat ++ ['\x7d']

/-- A text between double quotes. -/
def quoted (s : String) : String :=
  String.ofList ('\x22' :: (s.toList.flatMap escapeUnprintable ++ ['\x22']))

end Text
end SymbolView

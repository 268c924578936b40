import ResourceLookup.Text.Basic
import ResourceLookup.Text.Printable

/-!
# Quoted text

A quoted text stands between quotation marks. Inside, quotation marks and backslashes are
written behind a backslash, and a character that is not printable by a letter behind a backslash
or by its code.
-/

namespace ResourceLookup.Text

/-- A character as it is written between quotation marks. -/
def quoteChar (c : Char) : Text :=
  if c = '"' then "\\\"".toList
  else if c = '\\' then "\\\\".toList
  else if c = '\n' then "\\n".toList
  else if c = '\r' then "\\r".toList
  else if c = '\t' then "\\t".toList
  else if c = '\x00' then "\\0".toList
  else if isPrintable c then [c]
  else "\\u\x7b".toList ++ Nat.toDigits 16 c.toNat ++ "\x7d".toList

/-- A text between quotation marks. -/
def quoted (t : Text) : Text := '"' :: t.flatMap quoteChar ++ ['"']

end ResourceLookup.Text

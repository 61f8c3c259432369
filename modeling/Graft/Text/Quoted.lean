import Graft.Text.Printable

/-! # Quoted text

A text between quotes in which the quote, the backslash and everything that does not print
by itself is escaped.
-/
namespace Graft.Text

/-- A character outside the printable ones, by its code point in hexadecimal. -/
def escapeCode (c : Char) : List Char :=
  "\\u\x7b".toList ++ Nat.toDigits 16 c.toNat ++ "\x7d".toList

/-- A character as it stands between two `quote` characters. -/
def escapeChar (quote c : Char) : List Char :=
  if c = '\x00' then ['\\', '0']
  else if c = '\t' then ['\\', 't']
  else if c = '\r' then ['\\', 'r']
  else if c = '\n' then ['\\', 'n']
  else if c = '\\' || c = quote then ['\\', c]
  else if isPrintable c then [c]
  else escapeCode c

/-- A text in double quotes. -/
def quoteText (text : String) : String :=
  .ofList ('"' :: text.toList.flatMap (escapeChar '"') ++ ['"'])

/-- A character in single quotes. -/
def quoteChar (c : Char) : String :=
  .ofList ('\'' :: escapeChar '\'' c ++ ['\''])

end Graft.Text

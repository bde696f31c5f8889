import CoinAddress.Text.Basic
import CoinAddress.Text.Printable

/-!
# Quoted characters and texts

How a message shows a piece of its input: between quotation marks, with the characters that
could not be seen, or that would end the quotation, written as escapes.

A character stands between single marks and escapes those; a text stands between double marks and
escapes those. Tabs, line ends, carriage returns, the null character and the backslash have a
short escape; every other character that is not printable is written with its number in lower case
hexadecimal.
-/

namespace CoinAddress.Text

/-- The escape by number: a backslash, a small u and the number between braces. -/
def numberEscape (c : Char) : Text :=
  ['\\', 'u', '\x7b'] ++ Nat.toDigits 16 c.toNat ++ ['\x7d']

/-- One character inside a quotation that ends with `mark`. -/
def quotedChar (mark c : Char) : Text :=
  if c = '\x00' then ['\\', '0']
  else if c = '\t' then ['\\', 't']
  else if c = '\r' then ['\\', 'r']
  else if c = '\n' then ['\\', 'n']
  else if c = '\\' ∨ c = mark then ['\\', c]
  else if isPrintable c then [c]
  else numberEscape c

/-- A character between single quotation marks. -/
def quoteChar (c : Char) : Text := ['\x27'] ++ quotedChar '\x27' c ++ ['\x27']

/-- A text between double quotation marks. -/
def quote (s : Text) : Text := ['"'] ++ s.flatMap (quotedChar '"') ++ ['"']

/-- The double mark needs no escape in a quoted character. -/
example : quoteChar '"' = ['\x27', '"', '\x27'] := by decide +kernel

/-- The single mark needs no escape in a quoted text. -/
example : quote ['\x27', '"'] = ['"', '\x27', '\\', '"', '"'] := by decide +kernel

end CoinAddress.Text

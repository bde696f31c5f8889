import CoinAddress.Text.Basic

/-!
# The alphabet of 32 characters

Bech32 and the addresses of Bitcoin Cash write each word of five bits as one of the same 32
characters. The order puts characters that look alike at values that differ in one bit.
-/

namespace CoinAddress.Base32

/-- The characters in the order of their values. -/
def digits : Text := "qpzry9x8gf2tvdw0s3jn54khce6mua7l".toList

/-- The character of a word. -/
def digit (w : UInt8) : Char := digits.getD w.toNat 'q'

/-- The word of a character, in small letters only. -/
def value? (c : Char) : Option UInt8 := (digits.idxOf? c).map UInt8.ofNat

/-- The text of a list of words. -/
def encode (ws : Bytes) : Text := ws.map digit

theorem value?_digit {w : UInt8} (h : w.toNat < 32) : value? (digit w) = some w := by
  have hall : ∀ e ∈ List.range 32, value? (digit (UInt8.ofNat e)) = some (UInt8.ofNat e) := by
    decide
  simpa using hall w.toNat (List.mem_range.mpr h)

end CoinAddress.Base32

import CoinAddress.Base58.Checked

/-!
# Base58 in other alphabets

A text in one alphabet is carried over into another character by character: the character at a
position of the first alphabet becomes the one at the same position of the second. A character
that is not in the first alphabet, or stands there beyond the end of the second, is refused.

Accounts of the XRP Ledger are Base58 with a checksum in an alphabet that starts with an `r`.
-/

namespace CoinAddress.Base58

/-- Carries one character over; the first occurrence in an alphabet counts. -/
def exchange? (source target : Text) (c : Char) : Option Char :=
  (source.idxOf? c).bind fun i => target[i]?

/-- Carries a text over from one alphabet to another. -/
def transliterate (source target : Text) : Text → Except AddressError Text
  | [] => .ok []
  | c :: s =>
    match exchange? source target c with
    | none => .error (.invalidCharacter c)
    | some d => (transliterate source target s).map (d :: ·)

/-- Writes a text of the standard alphabet in another one. -/
def remap (s target : Text) : Except AddressError Text := transliterate digits target s

/-- Writes a text of another alphabet in the standard one. -/
def unmap (s source : Text) : Except AddressError Text := transliterate source digits s

/-- The first character that cannot be carried over is the one reported. -/
theorem transliterate_eq_error_iff {source target s : Text} {e : AddressError} :
    transliterate source target s = .error e ↔
      ∃ c, s.find? (fun c => (exchange? source target c).isNone) = some c ∧
        e = .invalidCharacter c := by
  induction s with
  | nil => simp [transliterate]
  | cons c s ih =>
    rw [transliterate]
    split
    · next h => simp [h, eq_comm]
    · next d h =>
      rw [List.find?_cons_of_neg (by simp [h]), ← ih]
      cases transliterate source target s <;> simp [Except.map]

end CoinAddress.Base58

namespace CoinAddress.Ripple

/-- The alphabet of the XRP Ledger. -/
def alphabet : Text := "rpshnaf39wBUDNEGHJKLM4PQRST7VWXYZ2bcdeCg65jkm8oFqi1tuvAxyz".toList

/-- The version of an account. -/
def accountVersion : Bytes := [0x00]

/-- The text of a payload. -/
def encode (payload : Bytes) : Except AddressError Text :=
  Base58.remap (Base58Check.encode accountVersion payload) alphabet

/-- The 20 bytes of an account. -/
def decode (s : Text) : Except AddressError Bytes := do
  let standard ← Base58.unmap s alphabet
  Base58Check.decodeExpecting standard accountVersion 20

end CoinAddress.Ripple

import CoinAddress.Family.Account

/-!
# Addresses in hexadecimal

An account of 20 bytes as `0x` and forty digits. The checksum is in the letter case: a letter is a
capital where the Keccak-256 of the digits in small letters has a digit of eight or more.

A text in one letter case carries no checksum and is accepted as it is.
-/

namespace CoinAddress.Evm

/-- How long an account is. -/
def accountLength : Nat := 20

/-- The digits with a capital wherever the digit of the digest at that position is eight or more. -/
def capitalize (digest : Bytes) (digits : Text) : Text :=
  digits.mapIdx fun i c =>
    let b := (digest.getD (i / 2) 0).toNat
    let nibble := if i % 2 = 0 then b / 16 else b % 16
    if 8 ≤ nibble then c.toUpper else c

/-- The digits of an account with the checksum in their case. -/
def checksumDigits (account : Bytes) : Text :=
  let digits := Hex.encode account
  capitalize (Keccak256.hash digits.utf8) digits

/-- The text of an account with the checksum. -/
def checksumText (account : Bytes) : Text := '0' :: 'x' :: checksumDigits account

/-- The text of an account in small letters. -/
def plainText (account : Bytes) : Text := '0' :: 'x' :: Hex.encode account

/-- The digits of a text behind its mark, in either case. -/
def digitsOf : Text → Except AddressError Text
  | '0' :: 'x' :: s | '0' :: 'X' :: s => .ok s
  | s => .error (.invalidPrefix ['0', 'x'] (s.take 2))

/-- Refuses the first character that is not a digit. -/
def checkDigits (digits : Text) : Except AddressError Unit :=
  match digits.find? fun c => !Hex.isDigit c with
  | some c => .error (.invalidCharacter c)
  | none => .ok ()

/-- The account of a text, whatever the case of its letters. -/
def parse (s : Text) : Except AddressError Bytes := do
  let digits ← digitsOf s
  checkDigits digits
  if digits.length ≠ 2 * accountLength then .error (.invalidEncoding (.evmDigits digits.length))
  else (Hex.decode digits).mapError fun e => .invalidEncoding (.evmHex e)

/-- The text with the checksum, of a text in any letter case. -/
def checksum (s : Text) : Except AddressError Text := (parse s).map checksumText

/-- Refuses what is no address, and a text in both letter cases whose checksum is wrong. -/
def validate (s : Text) : Except AddressError Unit := do
  let account ← parse s
  let digits := s.drop 2
  if digits.any Char.isLower && digits.any Char.isUpper && digits != checksumDigits account then
    .error .checksumMismatch
  else .ok ()

end CoinAddress.Evm

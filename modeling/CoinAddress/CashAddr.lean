import CoinAddress.Error

/-!
# Addresses of Bitcoin Cash

A label, a colon, and the words of a version byte and a hash of 20 bytes with eight checksum
words. The checksum also covers the label, of which it sees the low five bits of each byte.

A reader may find the label left out, and then takes the one it expects. Letters are all small or
all capital.
-/

namespace CoinAddress.CashAddr

/-- The version of an address that pays to a key. -/
def payToKey : UInt8 := 0x00

/-- The version of an address that pays to a script. -/
def payToScript : UInt8 := 0x08

/-- How long a hash is. -/
def hashLength : Nat := 20

/-- The code of the checksum. -/
def code : CyclicCode :=
  ⟨8, [0x98f2bc8e61, 0x79b76d99e2, 0xf33e5fb3c4, 0xae2eabe2a8, 0x1e4f43e470]⟩

/-- The label as words: the low five bits of each byte, and a zero. -/
def expandLabel (label : Text) : Bytes := label.utf8.map (· &&& 0x1f) ++ [0]

/-- The text of a version and a hash. -/
def encode (label : Text) (version : UInt8) (hash : Bytes) : Except AddressError Text :=
  if hash.length ≠ hashLength then .error (.invalidEncoding (.cashHashLength hash.length))
  else
    let words := Regroup.ofBytes 5 (version :: hash)
    let checksum := code.checksum 1 (expandLabel label ++ words)
    .ok (label ++ ':' :: Base32.encode (words ++ checksum))

/-- The words of a body in small letters. -/
def wordsOf : Text → Except AddressError Bytes
  | [] => .ok []
  | c :: s =>
    match Base32.value? c with
    | none => .error (.invalidCharacter c)
    | some w => (wordsOf s).map (w :: ·)

/-- The version and the hash in a list of words, of which the last eight are the checksum. -/
def decodeWords (label : Text) (words : Bytes) : Except AddressError (UInt8 × Bytes) :=
  if words.length ≤ code.checksumWords then
    .error (.payloadTooShort (code.checksumWords + 1) words.length)
  else if code.residue (expandLabel label ++ words) ≠ 1 then .error .checksumMismatch
  else do
    let data ←
      (Regroup.regroup 5 8 false (words.take (words.length - code.checksumWords))).mapError
        AddressError.ofRegroup
    match data with
    | [] => .error (.invalidEncoding .cashEmpty)
    | version :: hash =>
      if version &&& 0x07 ≠ 0 ∨ hash.length ≠ hashLength then
        .error (.invalidEncoding (.cashSize version hash.length))
      else .ok (version, hash)

/-- Reads an address under a label, which the text may leave out. -/
def decode (s label : Text) : Except AddressError (UInt8 × Bytes) :=
  if s.any Char.isLower && s.any Char.isUpper then .error (.invalidEncoding .cashMixedCase)
  else
    let lower := s.map Char.toLower
    let sides := (Text.cutAtFirst ':' lower).getD (label, lower)
    if sides.1 ≠ label then .error (.invalidPrefix label sides.1)
    else do
      let words ← wordsOf sides.2
      decodeWords label words

end CoinAddress.CashAddr

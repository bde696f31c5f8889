import CoinAddress.Bytes.Base32
import CoinAddress.Bytes.CyclicCode
import CoinAddress.Bytes.Regroup

/-!
# Bech32

A text is a human-readable part, the separator `1`, and data characters of which the last six are
a checksum over both. The separator is the last `1`, so the human-readable part may hold some.

A text is all lower case or all upper case; the human-readable part is read as lower case. There
is no limit to the length of the whole. Two checksums exist, told apart by the remainder that a
correct text has.

## The order of the checks

Separator, human-readable part from the left, data characters from the left, count of data
characters, checksum. The case of the letters is watched across both parts.
-/

namespace CoinAddress.Bech32

/-- Why a text is not Bech32 or a human-readable part cannot be used. -/
inductive Fault where
  | missingSeparator
  | invalidLength
  | invalidCharacter (c : Char)
  | mixedCase
  | checksum
  | padding
  deriving DecidableEq, Repr

/-- Which of the two checksums a text carries. -/
inductive Variant where
  | bech32
  | bech32m
  deriving DecidableEq, Repr

/-- The remainder of a text with a correct checksum. -/
def Variant.residue : Variant → Nat
  | .bech32 => 1
  | .bech32m => 0x2bc830a3

/-- The code of the checksum. -/
def code : CyclicCode :=
  ⟨6, [0x3b6a57b2, 0x26508e6d, 0x1ea119fa, 0x3d4233dd, 0x2a1462b3]⟩

/-- The letter case seen so far. -/
inductive LetterCase where
  | undecided
  | lower
  | upper
  deriving DecidableEq, Repr

/-- The case after one more character; none if it contradicts the case so far. -/
def LetterCase.see (k : LetterCase) (c : Char) : Option LetterCase :=
  if c.isLower then (if k = .upper then none else some .lower)
  else if c.isUpper then (if k = .lower then none else some .upper)
  else some k

/-- The case of a human-readable part, or its first fault. -/
def hrpCaseFrom (k : LetterCase) : Text → Except Fault LetterCase
  | [] => .ok k
  | c :: s =>
    if 33 ≤ c.toNat ∧ c.toNat ≤ 126 then
      match k.see c with
      | some k' => hrpCaseFrom k' s
      | none => .error .mixedCase
    else .error (.invalidCharacter (Text.leadByte c))

/-- The case of a human-readable part of 1 to 83 bytes, or its first fault. -/
def hrpCase (hrp : Text) : Except Fault LetterCase :=
  if hrp = [] ∨ 83 < hrp.byteSize then .error .invalidLength else hrpCaseFrom .undecided hrp

/-- The words of the data characters, after text in the case `k`. -/
def wordsFrom (k : LetterCase) : Text → Except Fault Bytes
  | [] => .ok []
  | c :: s =>
    if !Text.isAscii c then .error (.invalidCharacter c)
    else
      match k.see c with
      | none => .error .mixedCase
      | some k' =>
        match Base32.value? c.toLower with
        | none => .error (.invalidCharacter c)
        | some w => (wordsFrom k' s).map (w :: ·)

/-- The human-readable part as words: the high bits, a zero, and the low bits of each character. -/
def expandHrp (hrp : Text) : Bytes :=
  hrp.map (fun c => UInt8.ofNat (c.toNat / 32)) ++ 0 :: hrp.map fun c => UInt8.ofNat (c.toNat % 32)

/-- The variant whose remainder this is. -/
def variantOf? (residue : Nat) : Option Variant :=
  if residue = Variant.bech32.residue then some .bech32
  else if residue = Variant.bech32m.residue then some .bech32m
  else none

/-- The parts of a text with a correct checksum, which is taken off. -/
structure Parts where
  hrp : Text
  words : Bytes
  variant : Variant
  deriving DecidableEq, Repr

/-- Reads a text. -/
def parse (s : Text) : Except Fault Parts := do
  let (rawHrp, data) ←
    match Text.cutAtLast '1' s with
    | some sides => .ok sides
    | none => .error .missingSeparator
  let k ← hrpCase rawHrp
  let words ← wordsFrom k data
  if words.length < code.checksumWords then .error .invalidLength
  else
    let hrp := rawHrp.map Char.toLower
    match variantOf? (code.residue (expandHrp hrp ++ words)) with
    | none => .error .checksum
    | some variant => .ok ⟨hrp, words.take (words.length - code.checksumWords), variant⟩

/-- The text of a human-readable part and words, with the first of the two checksums. -/
def print (hrp : Text) (words : Bytes) : Except Fault Text :=
  match hrpCase hrp with
  | .error e => .error e
  | .ok _ =>
    let lower := hrp.map Char.toLower
    let checksum := code.checksum Variant.bech32.residue (expandHrp lower ++ words)
    .ok (lower ++ '1' :: Base32.encode (words ++ checksum))

/-- The bytes that a list of words spells. -/
def bytesOfWords (words : Bytes) : Except Fault Bytes :=
  match Regroup.regroup 5 8 false words with
  | .ok bs => .ok bs
  | .error _ => .error .padding

end CoinAddress.Bech32

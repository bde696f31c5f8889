import CoinAddress.Bytes.Regroup

/-!
# Base64 without padding

Each character stands for six bits. Two alphabets are in use; they differ in the characters for 62
and 63 only.

Reading takes no padding marks. Padding marks that do nothing but fill up the last four characters
have an error of their own; any other mark, and any character outside the alphabet, is reported by
its number and its position.
-/

namespace CoinAddress.Base64

/-- The 62 letters and digits that both alphabets share. -/
def commonDigits : Text :=
  "ABCDEFGHIJKLMNOPQRSTUVWXYZabcdefghijklmnopqrstuvwxyz0123456789".toList

/-- Which two characters stand for 62 and 63. -/
inductive Alphabet where
  | standard
  | urlSafe
  deriving DecidableEq, Repr

/-- The 64 characters of an alphabet in the order of their values. -/
def Alphabet.digits : Alphabet → Text
  | .standard => commonDigits ++ ['+', '/']
  | .urlSafe => commonDigits ++ ['-', '_']

/-- Why a text is not Base64. -/
inductive Fault where
  | invalidSymbol (byte offset : Nat)
  | invalidPadding
  deriving DecidableEq, Repr

/-- The wording of a fault. -/
def Fault.message : Fault → Text
  | .invalidSymbol byte offset =>
    "Invalid symbol ".toList ++ Text.ofNat byte ++ ", offset ".toList ++ Text.ofNat offset ++
      ['.']
  | .invalidPadding => "Invalid padding".toList

/-- The text of a byte string. -/
def encode (alphabet : Alphabet) (bs : Bytes) : Text :=
  (Regroup.ofBytes 6 bs).map fun w => alphabet.digits.getD w.toNat 'A'

/-- The six bit values of a text that starts at this position. -/
def valuesFrom (alphabet : Alphabet) (offset : Nat) : Text → Except Fault Bytes
  | [] => .ok []
  | c :: s =>
    match alphabet.digits.idxOf? c with
    | some v => (valuesFrom alphabet (offset + 1) s).map (UInt8.ofNat v :: ·)
    | none =>
      if c = '=' ∧ (s = [] ∨ s = ['=']) then .error .invalidPadding
      else .error (.invalidSymbol (Text.leadByte c).toNat offset)

/-- Reads a byte string; the bits left over at the end must be zero. -/
def decode (alphabet : Alphabet) (s : Text) : Except Fault Bytes :=
  match valuesFrom alphabet 0 s with
  | .error e => .error e
  | .ok vs =>
    match Regroup.regroup 6 8 false vs with
    | .ok bs => .ok bs
    | .error _ => .error .invalidPadding

example : encode .standard [0xfb, 0xff, 0xfe] = "+//+".toList := by decide +kernel
example : decode .urlSafe "-__-".toList = .ok [0xfb, 0xff, 0xfe] := rfl

end CoinAddress.Base64

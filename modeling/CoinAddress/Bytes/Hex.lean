import CoinAddress.Text.Quoted

/-!
# Hexadecimal

Two digits a byte, the high one first. Writing uses small letters; reading takes either case.

A text of an odd number of bytes is refused first; otherwise the first character that is no digit
is reported, by the first byte of it and that byte's position.

Main statement: `decode_encode`, what is written is read back.
-/

namespace CoinAddress.Hex

/-- Why a text is not hexadecimal. -/
inductive Fault where
  | oddLength
  | invalidCharacter (byte : Char) (position : Nat)
  deriving DecidableEq, Repr

/-- The wording of a fault. -/
def Fault.message : Fault → Text
  | .oddLength => "Odd number of digits".toList
  | .invalidCharacter byte position =>
    "Invalid character ".toList ++ Text.quoteChar byte ++ " at position ".toList ++
      Text.ofNat position

/-- The digit with this value. -/
def digitChar (d : Nat) : Char :=
  if d < 10 then Char.ofNat (0x30 + d) else Char.ofNat (0x61 + (d - 10))

/-- The value of a digit in either case. -/
def digitValue? (c : Char) : Option Nat :=
  let n := c.toNat
  if 0x30 ≤ n ∧ n ≤ 0x39 then some (n - 0x30)
  else if 0x61 ≤ n ∧ n ≤ 0x66 then some (n - 0x61 + 10)
  else if 0x41 ≤ n ∧ n ≤ 0x46 then some (n - 0x41 + 10)
  else none

/-- Whether the character is a digit in either case. -/
def isDigit (c : Char) : Bool := (digitValue? c).isSome

theorem digitValue?_digitChar {d : Nat} (h : d < 16) : digitValue? (digitChar d) = some d := by
  have hall : ∀ e ∈ List.range 16, digitValue? (digitChar e) = some e := by decide
  exact hall d (List.mem_range.mpr h)

/-- The two digits of a byte. -/
def encodeByte (b : UInt8) : Text := [digitChar (b.toNat / 16), digitChar (b.toNat % 16)]

/-- The digits of a byte string, in small letters. -/
def encode (bs : Bytes) : Text := bs.flatMap encodeByte

/-- Reads pairs of digits from a text that starts at this position. -/
def decodeFrom (position : Nat) : Text → Except Fault Bytes
  | [] => .ok []
  | [c] => .error (.invalidCharacter (Text.leadByte c) position)
  | c :: d :: s =>
    match digitValue? c, digitValue? d with
    | none, _ => .error (.invalidCharacter (Text.leadByte c) position)
    | some _, none => .error (.invalidCharacter (Text.leadByte d) (position + 1))
    | some high, some low =>
      (decodeFrom (position + 2) s).map (UInt8.ofNat (high * 16 + low) :: ·)

/-- Reads a byte string. -/
def decode (s : Text) : Except Fault Bytes :=
  if s.byteSize % 2 = 1 then .error .oddLength else decodeFrom 0 s

/-- Removes one mark `0x` in front. -/
def withoutMark : Text → Text
  | '0' :: 'x' :: s => s
  | s => s

@[simp] theorem length_encode (bs : Bytes) : (encode bs).length = 2 * bs.length := by
  induction bs with
  | nil => rfl
  | cons b bs ih =>
    simp only [encode, List.flatMap_cons, List.length_append, List.length_cons] at ih ⊢
    rw [ih]
    simp only [encodeByte, List.length_cons, List.length_nil]
    omega

/-- A written byte is read back. -/
theorem decodeFrom_encodeByte (position : Nat) (b : UInt8) (s : Text) :
    decodeFrom position (encodeByte b ++ s) = (decodeFrom (position + 2) s).map (b :: ·) := by
  have hb : b.toNat < 256 := UInt8.toNat_lt_size b
  simp only [encodeByte, List.cons_append, List.nil_append, decodeFrom,
    digitValue?_digitChar (show b.toNat / 16 < 16 by omega),
    digitValue?_digitChar (show b.toNat % 16 < 16 by omega)]
  rw [show b.toNat / 16 * 16 + b.toNat % 16 = b.toNat by omega]
  simp

/-- The digits of bytes are read as these bytes, wherever they stand. -/
theorem decodeFrom_encode (position : Nat) (bs : Bytes) :
    decodeFrom position (encode bs) = .ok bs := by
  induction bs generalizing position with
  | nil => rfl
  | cons b bs ih =>
    rw [encode, List.flatMap_cons, decodeFrom_encodeByte]
    exact congrArg (Except.map (b :: ·)) (ih (position + 2))

theorem utf8Size_digitChar {d : Nat} (h : d < 16) : (digitChar d).utf8Size = 1 := by
  have hall : ∀ e ∈ List.range 16, (digitChar e).utf8Size = 1 := by decide
  exact hall d (List.mem_range.mpr h)

theorem byteSize_encode (bs : Bytes) : (encode bs).byteSize = 2 * bs.length := by
  induction bs with
  | nil => rfl
  | cons b bs ih =>
    have hb : b.toNat < 256 := UInt8.toNat_lt_size b
    have hstep : encode (b :: bs) =
        digitChar (b.toNat / 16) :: digitChar (b.toNat % 16) :: encode bs := rfl
    rw [hstep, Text.byteSize_cons, Text.byteSize_cons, ih,
      utf8Size_digitChar (show b.toNat / 16 < 16 by omega),
      utf8Size_digitChar (show b.toNat % 16 < 16 by omega), List.length_cons]
    omega

/-- **What is written is read back.** -/
theorem decode_encode (bs : Bytes) : decode (encode bs) = .ok bs := by
  rw [decode, byteSize_encode, if_neg (by omega), decodeFrom_encode]

end CoinAddress.Hex

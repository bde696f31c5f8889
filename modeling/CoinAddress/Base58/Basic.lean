import CoinAddress.Bytes.Radix
import CoinAddress.Text.Quoted

/-!
# Base58

A byte string as one big-endian number in base 58. Each leading zero byte becomes one leading
digit for zero, and back.

Main statement: `decode_encode`.
-/

namespace CoinAddress.Base58

/-- The digits in the order of their values; zero, one and the letters that resemble them are
left out as far as they could be confused. -/
def digits : Text := "123456789ABCDEFGHJKLMNPQRSTUVWXYZabcdefghijkmnopqrstuvwxyz".toList

/-- Why a text is not Base58. -/
inductive Fault where
  | invalidCharacter (c : Char) (offset : Nat)
  | nonAscii (offset : Nat)
  deriving DecidableEq, Repr

/-- The wording of a fault. -/
def Fault.message : Fault → Text
  | .invalidCharacter c offset =>
    "provided string contained invalid character ".toList ++ Text.quoteChar c ++
      " at byte ".toList ++ Text.ofNat offset
  | .nonAscii offset =>
    "provided string contained non-ascii character starting at byte ".toList ++ Text.ofNat offset

/-- The digit with this value. -/
def digit (d : Nat) : Char := digits.getD d '1'

/-- The text of a byte string. -/
def encode (bs : Bytes) : Text := (Radix.recode 256 58 (bs.map UInt8.toNat)).map digit

/-- The values of the digits of a text that starts at this offset. -/
def valuesFrom (offset : Nat) : Text → Except Fault (List Nat)
  | [] => .ok []
  | c :: s =>
    match digits.idxOf? c with
    | some d => (valuesFrom (offset + 1) s).map (d :: ·)
    | none =>
      .error (if Text.isAscii c then .invalidCharacter c offset else .nonAscii offset)

/-- Reads a byte string. -/
def decode (s : Text) : Except Fault Bytes :=
  (valuesFrom 0 s).map fun ds => (Radix.recode 58 256 ds).map UInt8.ofNat

theorem idxOf?_digit {d : Nat} (h : d < 58) : digits.idxOf? (digit d) = some d := by
  have hall : ∀ e ∈ List.range 58, digits.idxOf? (digit e) = some e := by decide +kernel
  exact hall d (List.mem_range.mpr h)

theorem valuesFrom_map_digit (offset : Nat) {ds : List Nat} (h : ∀ d ∈ ds, d < 58) :
    valuesFrom offset (ds.map digit) = .ok ds := by
  induction ds generalizing offset with
  | nil => rfl
  | cons d ds ih =>
    rw [List.map_cons, valuesFrom, idxOf?_digit (h d (by simp))]
    simp only
    rw [ih (offset + 1) fun e he => h e (by simp [he])]
    rfl

/-- **What is written is read back.** -/
theorem decode_encode (bs : Bytes) : decode (encode bs) = .ok bs := by
  have hlt : ∀ d ∈ bs.map UInt8.toNat, d < 256 := by
    intro d hd
    obtain ⟨b, -, rfl⟩ := List.mem_map.1 hd
    exact UInt8.toNat_lt_size b
  rw [decode, encode, valuesFrom_map_digit 0 fun d hd => Radix.recode_lt (by omega) hd]
  simp only [Except.map]
  rw [Radix.recode_recode (by omega) (by omega) hlt, List.map_map]
  have hid : (UInt8.ofNat ∘ UInt8.toNat) = id := by
    funext b
    simp
  rw [hid, List.map_id]

end CoinAddress.Base58

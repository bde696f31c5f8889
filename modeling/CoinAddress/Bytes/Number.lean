import CoinAddress.Text.Basic

/-!
# Bytes as numbers

Byte strings read as big-endian or little-endian numbers, numbers written as a fixed count of
bytes, and the cutting of a byte string into blocks of one size.

Writing drops what does not fit: `beBytes k n` are the low `k` bytes of `n`.
-/

namespace CoinAddress.Bytes

/-- The number whose bytes these are, most significant first. -/
def beNat (bs : Bytes) : Nat := bs.foldl (fun n b => n * 256 + b.toNat) 0

/-- The number whose bytes these are, least significant first. -/
def leNat (bs : Bytes) : Nat := bs.foldr (fun b n => n * 256 + b.toNat) 0

/-- The low `k` bytes of a number, least significant first. -/
def leBytes : Nat → Nat → Bytes
  | 0, _ => []
  | k + 1, n => UInt8.ofNat n :: leBytes k (n / 256)

/-- The low `k` bytes of a number, most significant first. -/
def beBytes (k n : Nat) : Bytes := (leBytes k n).reverse

@[simp] theorem length_leBytes (k n : Nat) : (leBytes k n).length = k := by
  induction k generalizing n with
  | zero => rfl
  | succ k ih => simp [leBytes, ih]

@[simp] theorem length_beBytes (k n : Nat) : (beBytes k n).length = k := by simp [beBytes]

/-- Consecutive blocks of `n` bytes; the last one may be shorter. -/
def blocks (n : Nat) (bs : Bytes) : List Bytes :=
  if 0 < n ∧ bs ≠ [] then bs.take n :: blocks n (bs.drop n) else []
termination_by bs.length
decreasing_by
  have : 0 < bs.length := List.length_pos_iff.mpr (by simp_all)
  simp only [List.length_drop]
  omega

end CoinAddress.Bytes

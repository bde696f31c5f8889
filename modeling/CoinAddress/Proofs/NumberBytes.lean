import CoinAddress.Key.Point
import Mathlib.Algebra.Ring.Nat

/-!
# Numbers in bytes and powers

What is read back from the bytes of a number, and what squaring computes. With both, the
coordinates of a point are read back from its long serialisation.
-/

namespace CoinAddress

namespace Bytes

/-- What is read back is what fits. -/
theorem leNat_leBytes (k n : Nat) : leNat (leBytes k n) = n % 256 ^ k := by
  induction k generalizing n with
  | zero => simp [leBytes, leNat, Nat.mod_one]
  | succ k ih =>
    have : leNat (leBytes (k + 1) n) = leNat (leBytes k (n / 256)) * 256 + n % 256 := by
      simp [leBytes, leNat]
    rw [this, ih, Nat.pow_succ', Nat.mod_mul]
    omega

/-- The bytes that are written for a number that was read are those it was read from. -/
theorem leBytes_leNat (bs : Bytes) : leBytes bs.length (leNat bs) = bs := by
  induction bs with
  | nil => rfl
  | cons b bs ih =>
    have hb : b.toNat < 256 := UInt8.toNat_lt_size b
    have hsum : leNat (b :: bs) = leNat bs * 256 + b.toNat := rfl
    have hhead : UInt8.ofNat (leNat bs * 256 + b.toNat) = b := by
      rw [← UInt8.toNat_inj, UInt8.toNat_ofNat']
      omega
    have htail : (leNat bs * 256 + b.toNat) / 256 = leNat bs := by omega
    rw [List.length_cons, leBytes, hsum, hhead, htail, ih]

theorem beNat_eq_leNat_reverse (bs : Bytes) : beNat bs = leNat bs.reverse := by
  simp [beNat, leNat, List.foldr_reverse]

/-- What is read back is what fits. -/
theorem beNat_beBytes (k n : Nat) : beNat (beBytes k n) = n % 256 ^ k := by
  rw [beNat_eq_leNat_reverse, beBytes, List.reverse_reverse, leNat_leBytes]

/-- The bytes that are written for a number that was read are those it was read from. -/
theorem beBytes_beNat {k : Nat} {bs : Bytes} (h : bs.length = k) : beBytes k (beNat bs) = bs := by
  rw [beNat_eq_leNat_reverse, beBytes, ← h, ← List.length_reverse, leBytes_leNat,
    List.reverse_reverse]

end Bytes

namespace Secp256k1

/-- Squaring computes the power. -/
theorem powMod_eq (b e m : Nat) : powMod b e m = b ^ e % m := by
  induction e using Nat.strongRecOn with
  | _ e ih =>
    rw [powMod]
    split
    · next h => simp [h]
    · next h =>
      have hrec := ih (e / 2) (Nat.div_lt_self (by omega) (by omega))
      have hsq : powMod b (e / 2) m * powMod b (e / 2) m % m = b ^ (e / 2 * 2) % m := by
        rw [hrec, ← Nat.mul_mod, ← Nat.pow_add]
        congr 2
        omega
      simp only [hsq]
      split
      · next hodd =>
        rw [Nat.mod_mul_mod, ← Nat.pow_succ]
        congr 2
        omega
      · next heven =>
        congr 2
        omega

namespace Point

/-- The long serialisation is read back under every tag that admits its y. -/
theorem ofBytes?_of_tagAdmits {p : Point} {tag : UInt8} (h : tagAdmits tag p.y) :
    ofBytes? (tag :: p.coordinates) = some p := by
  have hx : p.x < 256 ^ 32 := Nat.lt_of_lt_of_le p.x_lt (by decide)
  have hy : p.y < 256 ^ 32 := Nat.lt_of_lt_of_le p.y_lt (by decide)
  have htake : p.coordinates.take 32 = Bytes.beBytes 32 p.x := by
    rw [coordinates, List.take_left' (by simp)]
  have hdrop : p.coordinates.drop 32 = Bytes.beBytes 32 p.y := by
    rw [coordinates, List.drop_left' (by simp)]
  rw [ofBytes?, if_neg (by simp), if_pos (by simp), htake, hdrop, Bytes.beNat_beBytes,
    Bytes.beNat_beBytes, Nat.mod_eq_of_lt hx, Nat.mod_eq_of_lt hy]
  simp only [h, if_true, ofCoordinates?_eq_some_iff, and_self]

/-- The long serialisation with the plain tag is read back. -/
theorem ofBytes?_coordinates (p : Point) : ofBytes? (0x04 :: p.coordinates) = some p :=
  ofBytes?_of_tagAdmits rfl

end Point

end Secp256k1

end CoinAddress

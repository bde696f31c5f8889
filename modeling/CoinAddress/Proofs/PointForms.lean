import CoinAddress.Proofs.FieldPrime
import CoinAddress.Proofs.Resolution

/-!
# The forms of a point

A point has a short serialisation, of which one coordinate is computed when it is read, and long
ones. Each of them is read back as the point.

So the formats that hash the point and not the bytes of the key give all forms of a point the same
address: `same_point_same_address`.
-/

namespace CoinAddress

namespace Secp256k1.Point

/-- The modulus is odd, so the two roots of a square differ in their parity. -/
theorem parity_other_root {y : Nat} (h : y ≤ fieldPrime) :
    ((fieldPrime - y) % 2 == 1) = !(y % 2 == 1) := by
  have hodd : fieldPrime % 2 = 1 := by decide
  rw [Bool.eq_iff_iff, Bool.not_eq_true', beq_iff_eq, beq_eq_false_iff_ne]
  omega

/-- **The missing coordinate is found again** from the other one and its parity. -/
theorem ofX?_eq (p : Point) : ofX? p.x (p.y % 2 == 1) = some p := by
  have hlt := p.y_lt
  rw [ofX?, ← p.on_curve]
  refine ofCoordinates?_eq_some_iff.2 ⟨rfl, ?_⟩
  rcases powMod_square p.y_lt with h | ⟨hpos, h⟩
  · rw [h, if_pos rfl]
  · rw [h, if_neg (by rw [parity_other_root (Nat.le_of_lt hlt)]; exact Bool.not_ne_self _)]
    omega

/-- What is found is a point with the given coordinate, and the other one has the parity that is
asked for. -/
theorem ofX?_eq_some_iff {x : Nat} {odd : Bool} {p : Point} :
    ofX? x odd = some p ↔ p.x = x ∧ (p.y % 2 == 1) = odd := by
  constructor
  · intro h
    rw [ofX?] at h
    obtain ⟨hx, hy⟩ := ofCoordinates?_eq_some_iff.1 h
    refine ⟨hx, ?_⟩
    have hroot : powMod (cubic x) ((fieldPrime + 1) / 4) fieldPrime < fieldPrime := by
      rw [powMod_eq]
      exact Nat.mod_lt _ (by decide)
    generalize powMod (cubic x) ((fieldPrime + 1) / 4) fieldPrime = root at hy hroot
    split at hy
    · next hparity => rw [hy, hparity]
    · next hparity =>
      rw [hy, parity_other_root (Nat.le_of_lt hroot), Bool.eq_not_of_ne hparity, Bool.not_not]
  · rintro ⟨rfl, rfl⟩
    exact ofX?_eq p

/-- The short serialisation is read back. -/
theorem ofBytes?_compressed (p : Point) : ofBytes? p.compressed = some p := by
  have hx : p.x < 256 ^ 32 := Nat.lt_of_lt_of_le p.x_lt (by decide)
  have hread : Bytes.beNat (Bytes.beBytes 32 p.x) = p.x := by
    rw [Bytes.beNat_beBytes, Nat.mod_eq_of_lt hx]
  have hpoint := ofX?_eq p
  rw [compressed, ofBytes?, if_pos (by simp), hread]
  by_cases h : p.y % 2 = 1
  · rw [if_pos h, if_pos (.inr rfl)]
    rwa [beq_iff_eq.2 h] at hpoint
  · rw [if_neg h, if_pos (.inl rfl)]
    rwa [beq_eq_false_iff_ne.2 h] at hpoint

/-- The coordinates tell points apart. -/
theorem coordinates_injective {p q : Point} (h : p.coordinates = q.coordinates) : p = q := by
  have hp := ofBytes?_coordinates p
  rw [h, ofBytes?_coordinates q] at hp
  exact (Option.some.inj hp).symm

end Secp256k1.Point

open Secp256k1 (Point)

namespace Family

/-- Whether the format hashes the point that a key is, in whatever form the key is given. -/
def hashesPoint : Family → Bool
  | segWit _ | cashAddr _ | evm | tron | cosmos _ => true
  | base58Check _ | ripple | ss58 _ | solana | sui | ton => false

/-- Where the point is hashed, nothing else of the key has a part in the address. -/
theorem encodeKey_eq_of_pointOf_eq {family : Family} (hpoint : family.hashesPoint)
    {key key' : Bytes} (h : Account.pointOf key = Account.pointOf key') :
    family.encodeKey key = family.encodeKey key' := by
  have hcompressed : Account.compressedHash key = Account.compressedHash key' := by
    rw [Account.compressedHash, h, Account.compressedHash]
  have hevm : Account.evm key = Account.evm key' := by
    rw [Account.evm, h, Account.evm]
  cases family with
  | segWit hrp | cashAddr label | cosmos hrp => simp only [encodeKey, hcompressed]
  | evm | tron => simp only [encodeKey, hevm]
  | base58Check version | ripple | ss58 network | solana | sui | ton => cases hpoint

theorem curve_of_hashesPoint {family : Family} (hpoint : family.hashesPoint) :
    family.curve = .secp256k1 := by
  cases family with
  | segWit hrp | cashAddr label | evm | tron | cosmos hrp => rfl
  | base58Check version | ripple | ss58 network | solana | sui | ton => cases hpoint

/-- A point has a length that no format on its curve refuses. -/
theorem encode_eq_encodeKey {family : Family} (hcurve : family.curve = .secp256k1) {key : Bytes}
    {p : Point} (hkey : Point.ofBytes? key = some p) :
    family.encode key = family.encodeKey key := by
  have hcheck : Curve.checkLength .secp256k1 key.length = .ok () := by
    rw [Curve.checkLength, if_pos]
    simpa [Curve.keyLengths] using Point.length_of_ofBytes? hkey
  rw [encode, hcurve, hcheck]
  rfl

end Family

/-- **A point has the same address in every form.** Two keys with the same coordinates, whichever
serialisations they are, have the same address in each format that hashes the point. And every
point has the short form and the long one: both are read as a point with the same coordinates and
the same short form. -/
theorem same_point_same_address {key key' : Bytes} {p p' : Point}
    (hkey : Point.ofBytes? key = some p) (hkey' : Point.ofBytes? key' = some p')
    (hcoordinates : p.coordinates = p'.coordinates) :
    (∀ family : Family, family.hashesPoint →
      family.encode key = family.encode key' ∧ family.encodeKey key = family.encodeKey key') ∧
    Account.evm key = Account.evm key' ∧
    ∀ form ∈ [p.compressed, 0x04 :: p.coordinates], ∃ q, Point.ofBytes? form = some q ∧
      q.coordinates = p.coordinates ∧ q.compressed = p.compressed := by
  obtain rfl := Point.coordinates_injective hcoordinates
  have hsame : Account.pointOf key = Account.pointOf key' := by
    rw [Account.pointOf, hkey, Account.pointOf, hkey']
  refine ⟨fun family hpoint => ?_, ?_, fun form hform => ?_⟩
  · have hencode := Family.encodeKey_eq_of_pointOf_eq hpoint hsame
    have hcurve := Family.curve_of_hashesPoint hpoint
    rw [Family.encode_eq_encodeKey hcurve hkey, Family.encode_eq_encodeKey hcurve hkey']
    exact ⟨hencode, hencode⟩
  · rw [Account.evm, hsame, Account.evm]
  · refine ⟨p, ?_, rfl, rfl⟩
    rcases List.mem_pair.1 hform with rfl | rfl
    · exact Point.ofBytes?_compressed p
    · exact Point.ofBytes?_coordinates p

/-- A point whose second coordinate is even. -/
def samplePoint : Point where
  x := 0xc823f633177efe8aa3642c8192de41827bd7f706d2f84619f48d4cd3b7488ec3
  y := 0xf87a419eebd3c8a5698a5fd16763dace5add79bf6fc99e30146466e0d6bf74be
  x_lt := by decide
  y_lt := by decide
  on_curve := by decide

/-- The short form and the long one with the parity in its tag, under a human-readable part. -/
theorem same_point_same_address_cosmos :
    (Family.cosmos "cosmos".toList).encode samplePoint.compressed =
      (Family.cosmos "cosmos".toList).encode (0x06 :: samplePoint.coordinates) ∧
    ∃ q, Point.ofBytes? samplePoint.compressed = some q ∧
      q.coordinates = samplePoint.coordinates ∧ q.compressed = samplePoint.compressed :=
  have hshort : Point.ofBytes? samplePoint.compressed = some samplePoint := by decide +kernel
  have hlong : Point.ofBytes? (0x06 :: samplePoint.coordinates) = some samplePoint := by
    decide +kernel
  have hsame := same_point_same_address hshort hlong rfl
  ⟨(hsame.1 _ rfl).1, hsame.2.2 _ List.mem_cons_self⟩

end CoinAddress

import CoinAddress.Bytes.Number

/-!
# Points of secp256k1

The curve y² = x³ + 7 over the integers modulo a prime of 256 bits. A `Point` is a pair of
coordinates below the prime that lies on the curve, so every value of the type is a usable public
key.

A point is read from 33 bytes, a tag for the parity of y and x, or from 65 bytes, a tag and both
coordinates. The long form may repeat the parity of y in its tag, and then it has to be right.

A missing y is a square root. The prime is 3 modulo 4, so if there is a root, the power with
exponent (p + 1) / 4 is one; whether it is one is checked by the curve equation.
-/

namespace CoinAddress.Secp256k1

/-- The prime modulus of the coordinates. -/
def fieldPrime : Nat :=
  0xfffffffffffffffffffffffffffffffffffffffffffffffffffffffefffffc2f

/-- The power of `b` modulo `m`, by squaring. -/
def powMod (b e m : Nat) : Nat :=
  if e = 0 then 1 % m
  else
    let half := powMod b (e / 2) m
    let square := half * half % m
    if e % 2 = 1 then square * b % m else square
termination_by e
decreasing_by exact Nat.div_lt_self (by omega) (by omega)

/-- The right-hand side of the curve equation. -/
def cubic (x : Nat) : Nat := (x * x * x + 7) % fieldPrime

/-- A point of the curve other than the point at infinity. -/
structure Point where
  x : Nat
  y : Nat
  x_lt : x < fieldPrime
  y_lt : y < fieldPrime
  on_curve : y * y % fieldPrime = cubic x
  deriving DecidableEq

namespace Point

/-- The point with these coordinates, if it is one. -/
def ofCoordinates? (x y : Nat) : Option Point :=
  if h : x < fieldPrime ∧ y < fieldPrime ∧ y * y % fieldPrime = cubic x then
    some ⟨x, y, h.1, h.2.1, h.2.2⟩
  else none

/-- The point with this x whose y is odd or even as asked. -/
def ofX? (x : Nat) (odd : Bool) : Option Point :=
  let root := powMod (cubic x) ((fieldPrime + 1) / 4) fieldPrime
  ofCoordinates? x (if (root % 2 == 1) = odd then root else fieldPrime - root)

/-- Whether the tag of a serialisation with both coordinates admits this y. -/
def tagAdmits (tag : UInt8) (y : Nat) : Bool :=
  tag == 0x04 || (tag == 0x06 && y % 2 == 0) || (tag == 0x07 && y % 2 == 1)

/-- Reads a serialised point. -/
def ofBytes? : Bytes → Option Point
  | [] => none
  | tag :: body =>
    if body.length = 32 then
      if tag = 0x02 ∨ tag = 0x03 then ofX? (Bytes.beNat body) (tag == 0x03) else none
    else if body.length = 64 then
      let x := Bytes.beNat (body.take 32)
      let y := Bytes.beNat (body.drop 32)
      if tagAdmits tag y then ofCoordinates? x y else none
    else none

/-- The short serialisation: the parity of y and x. -/
def compressed (p : Point) : Bytes :=
  (if p.y % 2 = 1 then 0x03 else 0x02) :: Bytes.beBytes 32 p.x

/-- Both coordinates, without a tag. -/
def coordinates (p : Point) : Bytes := Bytes.beBytes 32 p.x ++ Bytes.beBytes 32 p.y

@[simp] theorem length_compressed (p : Point) : p.compressed.length = 33 := by simp [compressed]

@[simp] theorem length_coordinates (p : Point) : p.coordinates.length = 64 := by
  simp [coordinates]

theorem ofCoordinates?_eq_some_iff {x y : Nat} {p : Point} :
    ofCoordinates? x y = some p ↔ p.x = x ∧ p.y = y := by
  constructor
  · intro h
    rw [ofCoordinates?] at h
    split at h
    · rw [← Option.some.inj h]
      exact ⟨rfl, rfl⟩
    · simp at h
  · rintro ⟨rfl, rfl⟩
    rw [ofCoordinates?, dif_pos ⟨p.x_lt, p.y_lt, p.on_curve⟩]

/-- A serialised point has one of the two lengths of a key. -/
theorem length_of_ofBytes? {bs : Bytes} {p : Point} (h : ofBytes? bs = some p) :
    bs.length = 33 ∨ bs.length = 65 := by
  cases bs with
  | nil => simp [ofBytes?] at h
  | cons tag body =>
    rw [ofBytes?] at h
    split at h
    · next hlen => simp [hlen]
    · split at h
      · next hlen => simp [hlen]
      · simp at h

end Point

end CoinAddress.Secp256k1

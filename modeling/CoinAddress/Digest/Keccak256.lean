import CoinAddress.Digest.Word

/-!
# Keccak-256

The sponge over the permutation of 25 lanes of 64 bits, with a rate of 136 bytes and a digest
of 32 bytes. The padding follows the message directly, without a domain suffix. Lane `(x, y)` has
the index `x + 5 y`.
-/

namespace CoinAddress.Keccak256

open Digest

/-- The 25 lanes. -/
abbrev State := Vector UInt64 25

/-- The lane in column `x` and row `y`, both modulo five. -/
def lane (s : State) (x y : Nat) : UInt64 :=
  s.get ⟨x % 5 + 5 * (y % 5), by omega⟩

/-- The state whose lane in column `x` and row `y` is `f x y`. -/
def tabulate (f : Nat → Nat → UInt64) : State := Vector.ofFn fun i => f (i.val % 5) (i.val / 5)

/-- One constant for each of the 24 rounds. -/
def roundConstants : List UInt64 :=
  [0x0000000000000001, 0x0000000000008082, 0x800000000000808a, 0x8000000080008000,
   0x000000000000808b, 0x0000000080000001, 0x8000000080008081, 0x8000000000008009,
   0x000000000000008a, 0x0000000000000088, 0x0000000080008009, 0x000000008000000a,
   0x000000008000808b, 0x800000000000008b, 0x8000000000008089, 0x8000000000008003,
   0x8000000000008002, 0x8000000000000080, 0x000000000000800a, 0x800000008000000a,
   0x8000000080008081, 0x8000000000008080, 0x0000000080000001, 0x8000000080008008]

/-- How far each lane is rotated, by its index. -/
def rotations : List Nat :=
  [0, 1, 62, 28, 27, 36, 44, 6, 55, 20, 3, 10, 43, 25, 39, 41, 45, 15, 21, 8, 18, 2, 61, 56, 14]

/-- Adds to every lane the parities of two columns. -/
def theta (s : State) : State :=
  let parity : Vector UInt64 5 := Vector.ofFn fun x =>
    lane s x 0 ^^^ lane s x 1 ^^^ lane s x 2 ^^^ lane s x 3 ^^^ lane s x 4
  let column (x : Nat) : UInt64 := parity.get ⟨x % 5, by omega⟩
  tabulate fun x y => lane s x y ^^^ column (x + 4) ^^^ rotateLeft64 (column (x + 1)) 1

/-- Rotates every lane and moves it to its new place. -/
def rhoPi (s : State) : State :=
  tabulate fun x y =>
    rotateLeft64 (lane s (x + 3 * y) x) (rotations.getD ((x + 3 * y) % 5 + 5 * x) 0)

/-- Mixes each lane with its two neighbours in the row. -/
def chi (s : State) : State :=
  tabulate fun x y => lane s x y ^^^ (~~~(lane s (x + 1) y) &&& lane s (x + 2) y)

/-- One round of the permutation. -/
def round (s : State) (constant : UInt64) : State :=
  let t := chi (rhoPi (theta s))
  t.set 0 (t[0] ^^^ constant)

/-- Adds a block of 136 bytes to the first lanes and permutes. -/
def absorb (s : State) (block : Bytes) : State :=
  let words := leWords64 block
  roundConstants.foldl round (Vector.ofFn fun i : Fin 25 => s[i] ^^^ words.getD i.val 0)

/-- The message followed by a one bit, zero bits and a one bit, up to a multiple of 136 bytes. -/
def padMessage (message : Bytes) : Bytes :=
  let gap := 135 - message.length % 136
  message ++ (if gap = 0 then [0x81] else 0x01 :: List.replicate (gap - 1) 0 ++ [0x80])

/-- The Keccak-256 digest of a message. -/
def hash (message : Bytes) : Bytes :=
  let s := (Bytes.blocks 136 (padMessage message)).foldl absorb (Vector.replicate 25 0)
  [s[0], s[1], s[2], s[3]].flatMap fun w => Bytes.leBytes 8 w.toNat

@[simp] theorem length_hash (message : Bytes) : (hash message).length = 32 := by
  simp [hash]

end CoinAddress.Keccak256

import CoinAddress.Digest.Word

/-!
# BLAKE2b

The unkeyed digest of up to 64 bytes. Each block of 128 bytes is mixed by twelve rounds into a
state of eight words; the count of bytes so far and the mark of the last block enter the mixing.
The length of the digest enters the first state, so a short digest is not the start of a long one.
-/

namespace CoinAddress.Blake2b

open Digest

/-- The eight words of the chaining value. -/
abbrev State := Vector UInt64 8

/-- The sixteen words that a compression works on. -/
abbrev Work := Vector UInt64 16

/-- The initialisation vector. -/
def iv : State :=
  #v[0x6a09e667f3bcc908, 0xbb67ae8584caa73b, 0x3c6ef372fe94f82b, 0xa54ff53a5f1d36f1,
     0x510e527fade682d1, 0x9b05688c2b3e6c1f, 0x1f83d9abfb41bd6b, 0x5be0cd19137e2179]

/-- The word order of each of the ten different rounds. -/
def wordOrders : List (Vector (Fin 16) 16) :=
  [#v[0, 1, 2, 3, 4, 5, 6, 7, 8, 9, 10, 11, 12, 13, 14, 15],
   #v[14, 10, 4, 8, 9, 15, 13, 6, 1, 12, 0, 2, 11, 7, 5, 3],
   #v[11, 8, 12, 0, 5, 2, 15, 13, 10, 14, 3, 6, 7, 1, 9, 4],
   #v[7, 9, 3, 1, 13, 12, 11, 14, 2, 6, 5, 10, 4, 0, 15, 8],
   #v[9, 0, 5, 7, 2, 4, 10, 15, 14, 1, 11, 12, 6, 8, 3, 13],
   #v[2, 12, 6, 10, 0, 11, 8, 3, 4, 13, 7, 5, 15, 14, 1, 9],
   #v[12, 5, 1, 15, 14, 13, 4, 10, 0, 7, 6, 3, 9, 2, 8, 11],
   #v[13, 11, 7, 14, 12, 1, 3, 9, 5, 0, 15, 4, 8, 6, 2, 10],
   #v[6, 15, 14, 9, 11, 3, 0, 8, 12, 2, 13, 7, 1, 4, 10, 5],
   #v[10, 2, 8, 4, 7, 6, 1, 5, 15, 11, 9, 14, 3, 12, 13, 0]]

/-- The orders of the twelve rounds: the first two come again at the end. -/
def roundOrders : List (Vector (Fin 16) 16) := wordOrders ++ wordOrders.take 2

/-- Mixes two message words into four words of the work vector. -/
def mix (v : Work) (a b c d : Fin 16) (x y : UInt64) : Work :=
  let a1 := v[a] + v[b] + x
  let d1 := rotateRight64 (v[d] ^^^ a1) 32
  let c1 := v[c] + d1
  let b1 := rotateRight64 (v[b] ^^^ c1) 24
  let a2 := a1 + b1 + y
  let d2 := rotateRight64 (d1 ^^^ a2) 16
  let c2 := c1 + d2
  let b2 := rotateRight64 (b1 ^^^ c2) 63
  (((v.set a a2).set b b2).set c c2).set d d2

/-- One round over the sixteen message words. -/
def round (m : Work) (v : Work) (order : Vector (Fin 16) 16) : Work :=
  let v := mix v 0 4 8 12 m[order[0]] m[order[1]]
  let v := mix v 1 5 9 13 m[order[2]] m[order[3]]
  let v := mix v 2 6 10 14 m[order[4]] m[order[5]]
  let v := mix v 3 7 11 15 m[order[6]] m[order[7]]
  let v := mix v 0 5 10 15 m[order[8]] m[order[9]]
  let v := mix v 1 6 11 12 m[order[10]] m[order[11]]
  let v := mix v 2 7 8 13 m[order[12]] m[order[13]]
  mix v 3 4 9 14 m[order[14]] m[order[15]]

/-- Mixes a block into the state; `total` bytes have been read with it. -/
def compress (h : State) (block : Bytes) (total : Nat) (isLast : Bool) : State :=
  let words := leWords64 block
  let m : Work := Vector.ofFn fun i => words.getD i.val 0
  let v : Work := h ++ iv
  let v := v.set 12 (v[12] ^^^ UInt64.ofNat total)
  let v := v.set 13 (v[13] ^^^ UInt64.ofNat (total / UInt64.size))
  let v := if isLast then v.set 14 (~~~v[14]) else v
  let v := roundOrders.foldl (round m) v
  Vector.ofFn fun i : Fin 8 => h[i] ^^^ v.get ⟨i.val, by omega⟩ ^^^ v.get ⟨i.val + 8, by omega⟩

/-- Mixes the remaining bytes into the state; the last block is filled up with zeros. -/
def absorb (h : State) (done : Nat) (rest : Bytes) : State :=
  if 128 < rest.length then
    absorb (compress h (rest.take 128) (done + 128) false) (done + 128) (rest.drop 128)
  else
    compress h (rest ++ List.replicate (128 - rest.length) 0) (done + rest.length) true
termination_by rest.length
decreasing_by simp only [List.length_drop]; omega

/-- The BLAKE2b digest of `size` bytes. -/
def hash (size : Nat) (message : Bytes) : Bytes :=
  let h := absorb (iv.set 0 (iv[0] ^^^ 0x01010000 ^^^ UInt64.ofNat size)) 0 message
  (h.toList.flatMap fun w => Bytes.leBytes 8 w.toNat).take size

theorem length_hash {size : Nat} (h : size ≤ 64) (message : Bytes) :
    (hash size message).length = size := by
  have hsum : ∀ ws : List UInt64,
      (ws.flatMap fun w => Bytes.leBytes 8 w.toNat).length = 8 * ws.length := by
    intro ws
    induction ws with
    | nil => rfl
    | cons w ws ih => simp [List.flatMap_cons, ih, Nat.mul_add, Nat.add_comm]
  rw [hash, List.length_take, hsum, Vector.length_toList]
  omega

end CoinAddress.Blake2b

import CoinAddress.Digest.Sha256

/-!
# RIPEMD-160, and the hash of a public key

Two lines of eighty steps run over each block, with their own word orders, shifts and constants,
and are added crosswise into a state of five words.

`keyHash`, the RIPEMD-160 of the SHA-256, is what addresses of the Bitcoin family commit to.
-/

namespace CoinAddress.Ripemd160

open Digest

/-- The five words that the compression works on. -/
structure State where
  a : UInt32
  b : UInt32
  c : UInt32
  d : UInt32
  e : UInt32

/-- The state before the first block. -/
def initial : State := ⟨0x67452301, 0xefcdab89, 0x98badcfe, 0x10325476, 0xc3d2e1f0⟩

/-- What tells the two lines apart: word order, shifts, constants and the order of functions. -/
structure Line where
  wordOrder : List Nat
  shifts : List Nat
  constants : List UInt32
  functions : List Nat

/-- The left line. -/
def left : Line where
  wordOrder :=
    [0, 1, 2, 3, 4, 5, 6, 7, 8, 9, 10, 11, 12, 13, 14, 15,
     7, 4, 13, 1, 10, 6, 15, 3, 12, 0, 9, 5, 2, 14, 11, 8,
     3, 10, 14, 4, 9, 15, 8, 1, 2, 7, 0, 6, 13, 11, 5, 12,
     1, 9, 11, 10, 0, 8, 12, 4, 13, 3, 7, 15, 14, 5, 6, 2,
     4, 0, 5, 9, 7, 12, 2, 10, 14, 1, 3, 8, 11, 6, 15, 13]
  shifts :=
    [11, 14, 15, 12, 5, 8, 7, 9, 11, 13, 14, 15, 6, 7, 9, 8,
     7, 6, 8, 13, 11, 9, 7, 15, 7, 12, 15, 9, 11, 7, 13, 12,
     11, 13, 6, 7, 14, 9, 13, 15, 14, 8, 13, 6, 5, 12, 7, 5,
     11, 12, 14, 15, 14, 15, 9, 8, 9, 14, 5, 6, 8, 6, 5, 12,
     9, 15, 5, 11, 6, 8, 13, 12, 5, 12, 13, 14, 11, 8, 5, 6]
  constants := [0x00000000, 0x5a827999, 0x6ed9eba1, 0x8f1bbcdc, 0xa953fd4e]
  functions := [0, 1, 2, 3, 4]

/-- The right line. -/
def right : Line where
  wordOrder :=
    [5, 14, 7, 0, 9, 2, 11, 4, 13, 6, 15, 8, 1, 10, 3, 12,
     6, 11, 3, 7, 0, 13, 5, 10, 14, 15, 8, 12, 4, 9, 1, 2,
     15, 5, 1, 3, 7, 14, 6, 9, 11, 8, 12, 2, 10, 0, 4, 13,
     8, 6, 4, 1, 3, 11, 15, 0, 5, 12, 2, 13, 9, 7, 10, 14,
     12, 15, 10, 4, 1, 5, 8, 7, 6, 2, 13, 14, 0, 3, 9, 11]
  shifts :=
    [8, 9, 9, 11, 13, 15, 15, 5, 7, 7, 8, 11, 14, 14, 12, 6,
     9, 13, 15, 7, 12, 8, 9, 11, 7, 7, 12, 7, 6, 15, 13, 11,
     9, 7, 15, 11, 8, 6, 6, 14, 12, 13, 5, 14, 13, 13, 7, 5,
     15, 5, 8, 11, 14, 14, 6, 14, 6, 9, 12, 9, 12, 5, 15, 8,
     8, 5, 12, 9, 12, 5, 14, 6, 8, 13, 6, 5, 15, 13, 11, 11]
  constants := [0x50a28be6, 0x5c4dd124, 0x6d703ef3, 0x7a6d76e9, 0x00000000]
  functions := [4, 3, 2, 1, 0]

/-- The five bitwise functions. -/
def mixing (k : Nat) (x y z : UInt32) : UInt32 :=
  match k with
  | 0 => x ^^^ y ^^^ z
  | 1 => (x &&& y) ||| (~~~x &&& z)
  | 2 => (x ||| ~~~y) ^^^ z
  | 3 => (x &&& z) ||| (y &&& ~~~z)
  | _ => x ^^^ (y ||| ~~~z)

/-- Step `j` of a line over the sixteen words of a block. -/
def Line.step (line : Line) (words : List UInt32) (s : State) (j : Nat) : State :=
  let f := mixing (line.functions.getD (j / 16) 0) s.b s.c s.d
  let w := words.getD (line.wordOrder.getD j 0) 0
  let t := rotateLeft32 (s.a + f + w + line.constants.getD (j / 16) 0) (line.shifts.getD j 0) + s.e
  ⟨s.e, t, s.b, rotateLeft32 s.c 10, s.d⟩

/-- All eighty steps of a line. -/
def Line.run (line : Line) (words : List UInt32) (s : State) : State :=
  (List.range 80).foldl (line.step words) s

/-- Mixes one block into the state. -/
def compress (s : State) (block : Bytes) : State :=
  let words := leWords32 block
  let l := left.run words s
  let r := right.run words s
  ⟨s.b + l.c + r.d, s.c + l.d + r.e, s.d + l.e + r.a, s.e + l.a + r.b, s.a + l.b + r.c⟩

/-- The 20 bytes of a state. -/
def State.toBytes (s : State) : Bytes :=
  [s.a, s.b, s.c, s.d, s.e].flatMap fun w => Bytes.leBytes 4 w.toNat

/-- The RIPEMD-160 digest of a message. -/
def hash (message : Bytes) : Bytes :=
  ((Bytes.blocks 64 (padMessage (Bytes.leBytes 8) message)).foldl compress initial).toBytes

/-- The hash of a serialised public key: RIPEMD-160 of its SHA-256. -/
def keyHash (key : Bytes) : Bytes := hash (Sha256.hash key)

@[simp] theorem length_hash (message : Bytes) : (hash message).length = 20 := by
  simp [hash, State.toBytes]

@[simp] theorem length_keyHash (key : Bytes) : (keyHash key).length = 20 := length_hash _

end CoinAddress.Ripemd160

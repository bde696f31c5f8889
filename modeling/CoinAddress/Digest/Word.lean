import CoinAddress.Bytes.Number

/-!
# Words of a digest

Rotation of 32 and 64 bit words, and words read from and written to bytes in either order. A
rotation count is at least one and below the width, or zero.
-/

namespace CoinAddress.Digest

/-- The word with its top `k` bits moved to the bottom. -/
def rotateLeft32 (w : UInt32) (k : Nat) : UInt32 :=
  (w <<< UInt32.ofNat k) ||| (w >>> UInt32.ofNat (32 - k))

/-- The word with its top `k` bits moved to the bottom. -/
def rotateLeft64 (w : UInt64) (k : Nat) : UInt64 :=
  (w <<< UInt64.ofNat k) ||| (w >>> UInt64.ofNat (64 - k))

/-- The word with its bottom `k` bits moved to the top. -/
def rotateRight32 (w : UInt32) (k : Nat) : UInt32 := rotateLeft32 w (32 - k)

/-- The word with its bottom `k` bits moved to the top. -/
def rotateRight64 (w : UInt64) (k : Nat) : UInt64 := rotateLeft64 w (64 - k)

/-- Big-endian words of 32 bits. -/
def beWords32 (bs : Bytes) : List UInt32 :=
  (Bytes.blocks 4 bs).map fun b => UInt32.ofNat (Bytes.beNat b)

/-- Little-endian words of 32 bits. -/
def leWords32 (bs : Bytes) : List UInt32 :=
  (Bytes.blocks 4 bs).map fun b => UInt32.ofNat (Bytes.leNat b)

/-- Little-endian words of 64 bits. -/
def leWords64 (bs : Bytes) : List UInt64 :=
  (Bytes.blocks 8 bs).map fun b => UInt64.ofNat (Bytes.leNat b)

/--
The message followed by a one bit, as many zero bits as it takes, and its length in bits as 8
bytes, so that the whole is a multiple of 64 bytes.
-/
def padMessage (lengthBytes : Nat → Bytes) (message : Bytes) : Bytes :=
  message ++ 0x80 :: List.replicate ((119 - message.length % 64) % 64) 0 ++
    lengthBytes (8 * message.length)

/-- A padded message is a whole number of 64 byte blocks. -/
theorem length_padMessage {lengthBytes : Nat → Bytes} (h : ∀ n, (lengthBytes n).length = 8)
    (message : Bytes) : (padMessage lengthBytes message).length % 64 = 0 := by
  simp only [padMessage, List.length_append, List.length_cons, List.length_replicate, h]
  omega

end CoinAddress.Digest

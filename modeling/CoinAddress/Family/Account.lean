import CoinAddress.Digest.Blake2b
import CoinAddress.Digest.Keccak256
import CoinAddress.Digest.Ripemd160
import CoinAddress.Key.Point
import CoinAddress.Key.PublicKey

/-!
# Accounts

What an address commits to, computed from the bytes of a public key.

Keys of secp256k1 are read as points first, so bytes that are no point fail alike everywhere.
Some formats hash the compressed point, some the bytes as given, and some the bare coordinates.
-/

namespace CoinAddress.Account

/-- The point that a key is. -/
def pointOf (key : Bytes) : Except AddressError Secp256k1.Point :=
  match Secp256k1.Point.ofBytes? key with
  | some p => .ok p
  | none => .error .invalidPublicKey

/-- The hash of the compressed point. -/
def compressedHash (key : Bytes) : Except AddressError Bytes := do
  let p ← pointOf key
  .ok (Ripemd160.keyHash p.compressed)

/-- The hash of the key as given, which has to be a point. -/
def givenHash (key : Bytes) : Except AddressError Bytes := do
  let _ ← pointOf key
  .ok (Ripemd160.keyHash key)

/-- The last 20 bytes of the Keccak-256 of the coordinates. -/
def evm (key : Bytes) : Except AddressError Bytes := do
  let p ← pointOf key
  .ok ((Keccak256.hash p.coordinates).drop 12)

/-- The 32 bytes of a key of ed25519. -/
def edKey (key : Bytes) : Except AddressError Bytes :=
  if key.length = 32 then .ok key else .error (.invalidKeyLength .ed25519 key.length)

/-- The BLAKE2b of a zero byte, which marks ed25519, and the key. -/
def sui (key : Bytes) : Except AddressError Bytes := do
  let key ← edKey key
  .ok (Blake2b.hash 32 (0x00 :: key))

end CoinAddress.Account

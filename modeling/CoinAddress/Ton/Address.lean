import CoinAddress.Digest.Crc16
import CoinAddress.Error

/-!
# Addresses of TON

An account is a workchain and a hash of 32 bytes. Its user-friendly form is 36 bytes in Base64:
flags, the low byte of the workchain, the hash, and a CRC-16 of what comes before. The flags say
whether messages may bounce and whether the address is for the test network only. The raw form is
the workchain in decimal, a colon and the hash in hexadecimal.

Both alphabets of Base64 are read. A text with a character that only the URL-safe alphabet has is
read in that one, any other in the standard one. Only the base chain and the master chain are
accepted.
-/

namespace CoinAddress.Ton

/-- An account with the flags of its user-friendly form. -/
structure Address where
  workchain : Int32
  hash : Bytes
  bounceable : Bool
  testnet : Bool
  hash_length : hash.length = 32
  deriving DecidableEq

/-- The workchain of ordinary accounts. -/
def baseChain : Int32 := 0

/-- The workchain of the validators. -/
def masterChain : Int32 := -1

/-- The flags of an address that messages may bounce from. -/
def bounceableFlags : UInt8 := 0x11

/-- The flags of an address that messages must not bounce from. -/
def nonBounceableFlags : UInt8 := 0x51

/-- The flag of the test network. -/
def testnetFlag : UInt8 := 0x80

namespace Address

/-- The flags of an address. -/
def flags (a : Address) : UInt8 :=
  (if a.bounceable then bounceableFlags else nonBounceableFlags) |||
    (if a.testnet then testnetFlag else 0)

/-- The bytes that the checksum covers. -/
def body (a : Address) : Bytes := a.flags :: a.workchain.toInt8.toUInt8 :: a.hash

/-- The user-friendly form in an alphabet. -/
def toTextIn (alphabet : Base64.Alphabet) (a : Address) : Text :=
  Base64.encode alphabet (a.body ++ Crc16.bytes a.body)

/-- The user-friendly form, in the URL-safe alphabet. -/
def toText (a : Address) : Text := a.toTextIn .urlSafe

end Address

/-- Refuses every workchain but the two in use. -/
def checkWorkchain (w : Int32) : Except AddressError Unit :=
  if w = baseChain ∨ w = masterChain then .ok ()
  else .error (.invalidPrefix "workchain 0 or -1".toList (Text.ofInt w.toInt))

/-- Reads the raw form, cut at its first colon. -/
def ofRaw (workchain hash : Text) : Except AddressError Address :=
  match Text.readInt32 workchain with
  | .error _ => .error (.invalidEncoding (.tonWorkchain workchain))
  | .ok w => do
    checkWorkchain w
    if hash.byteSize ≠ 64 then .error (.invalidEncoding .tonHashLength)
    else
      let bytes ← (Hex.decode hash).mapError fun e => .invalidEncoding (.tonHash e)
      if h : bytes.length = 32 then .ok ⟨w, bytes, true, false, h⟩
      else .error (.invalidEncoding .tonHashLength)

/-- Whether messages may bounce, by the flags without the one of the test network. -/
def bounceableOf (flags : UInt8) : Except AddressError Bool :=
  if flags &&& ~~~testnetFlag = bounceableFlags then .ok true
  else if flags &&& ~~~testnetFlag = nonBounceableFlags then .ok false
  else .error (.invalidPrefix "flags 0x11 or 0x51".toList (byteText flags))

/-- Reads the 36 bytes of the user-friendly form. -/
def ofBytes (bytes : Bytes) : Except AddressError Address :=
  match bytes with
  | flags :: workchain :: rest =>
    if h : rest.length = 34 then
      if Crc16.bytes (flags :: workchain :: rest.take 32) ≠ rest.drop 32 then
        .error .checksumMismatch
      else do
        let bounceable ← bounceableOf flags
        let w := workchain.toInt8.toInt32
        checkWorkchain w
        .ok ⟨w, rest.take 32, bounceable, flags &&& testnetFlag ≠ 0, by simp [h]⟩
    else .error (.payloadTooShort 36 bytes.length)
  | _ => .error (.payloadTooShort 36 bytes.length)

/-- The alphabet that a text is read in. -/
def alphabetOf (s : Text) : Base64.Alphabet :=
  if '-' ∈ s ∨ '_' ∈ s then .urlSafe else .standard

/-- Reads either form. -/
def parse (s : Text) : Except AddressError Address :=
  match Text.cutAtFirst ':' s with
  | some (workchain, hash) => ofRaw workchain hash
  | none =>
    if s.byteSize ≠ 48 then .error (.invalidEncoding (.tonLength s.byteSize))
    else do
      let bytes ←
        (Base64.decode (alphabetOf s) s).mapError fun e => .invalidEncoding (.base64 e)
      ofBytes bytes

end CoinAddress.Ton

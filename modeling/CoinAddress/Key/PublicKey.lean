import CoinAddress.Error
import CoinAddress.Text.Blank

/-!
# Public keys

The bytes of a public key with the curve they belong to. The length is checked when a key is
built, so every value of the type has a length that its curve allows; whether the bytes are a
point of the curve is not checked here.
-/

namespace CoinAddress

/-- The curve with this name or signature scheme, in any letter case. -/
def Curve.read (s : Text) : Except AddressError Curve :=
  let lower := Text.toLower s
  match Curve.ofWord? lower with
  | some curve => .ok curve
  | none => .error (.invalidConfig (.unknownCurve lower))

/-- Refuses a length that keys on the curve do not have. -/
def Curve.checkLength (curve : Curve) (length : Nat) : Except AddressError Unit :=
  if length ∈ curve.keyLengths then .ok () else .error (.invalidKeyLength curve length)

/-- The bytes of a public key on a curve. -/
structure PublicKey where
  curve : Curve
  bytes : Bytes
  length_mem : bytes.length ∈ curve.keyLengths
  deriving DecidableEq

namespace PublicKey

/-- The key with these bytes, if their length is right. -/
def ofBytes (curve : Curve) (bytes : Bytes) : Except AddressError PublicKey :=
  if h : bytes.length ∈ curve.keyLengths then .ok ⟨curve, bytes, h⟩
  else .error (.invalidKeyLength curve bytes.length)

/-- The bytes of a key in hexadecimal, with or without a mark, between white space. -/
def readHex (s : Text) : Except AddressError Bytes :=
  (Hex.decode (Hex.withoutMark (Text.trim s))).mapError fun e => .invalidEncoding (.keyHex e)

/-- Reads a key in hexadecimal. -/
def ofHex (curve : Curve) (s : Text) : Except AddressError PublicKey := do
  let bytes ← readHex s
  ofBytes curve bytes

/-- The key in hexadecimal. -/
def toHex (key : PublicKey) : Text := Hex.encode key.bytes

/-- What a key is written as is read back. -/
theorem ofBytes_bytes (key : PublicKey) : ofBytes key.curve key.bytes = .ok key := by
  rw [ofBytes, dif_pos key.length_mem]

end PublicKey

end CoinAddress

import CoinAddress.Text.Lowercase

/-!
# Signature curves

The curve a chain's keys live on decides how many bytes a public key may have.
-/

namespace CoinAddress

/-- The signature curves in use. -/
inductive Curve where
  | secp256k1
  | ed25519
  deriving DecidableEq, Repr

namespace Curve

/-- The name of the curve. -/
def name : Curve → Text
  | .secp256k1 => "secp256k1".toList
  | .ed25519 => "ed25519".toList

/-- The lengths in bytes that a public key on the curve may have. -/
def keyLengths : Curve → List Nat
  | .secp256k1 => [33, 65]
  | .ed25519 => [32]

/-- The wording of the lengths in a message. -/
def lengthsText : Curve → Text
  | .secp256k1 => "33 or 65".toList
  | .ed25519 => "32".toList

/-- The curve with this name. -/
def ofName? (s : Text) : Option Curve :=
  if s = "secp256k1".toList then some .secp256k1
  else if s = "ed25519".toList then some .ed25519
  else none

/-- The curve that a lower-case word stands for: its name or the name of its signature scheme. -/
def ofWord? (s : Text) : Option Curve :=
  if s = "ecdsa".toList then some .secp256k1
  else if s = "eddsa".toList then some .ed25519
  else ofName? s

theorem ofName?_name (c : Curve) : ofName? c.name = some c := by
  cases c <;> rfl

end Curve

end CoinAddress

import CoinAddress.Bytes.Hex
import CoinAddress.Key.Curve

/-!
# Address families

Chains share a few address formats, apart from a parameter such as a version or a human-readable
part. A family is a format with its parameter.
-/

namespace CoinAddress

/-- An address format with its parameter. -/
inductive Family where
  /-- A version, the hash of the key as given, and a checksum in Base58. -/
  | base58Check (version : Bytes)
  /-- A version 0 witness program in Bech32. -/
  | segWit (hrp : Text)
  /-- A hash in the base 32 of Bitcoin Cash. -/
  | cashAddr (label : Text)
  /-- The last 20 bytes of a hash of the point in hexadecimal. -/
  | evm
  /-- The account of `evm` in Base58. -/
  | tron
  /-- The hash of the key in Bech32. -/
  | cosmos (hrp : Text)
  /-- Base58 in an alphabet of its own. -/
  | ripple
  /-- The key itself in Base58, after a network number and before a checksum. -/
  | ss58 (network : UInt16)
  /-- The key itself in Base58. -/
  | solana
  /-- A hash of the key in hexadecimal. -/
  | sui
  /-- The hash of the key's wallet contract in Base64. -/
  | ton
  deriving DecidableEq, Repr

namespace Family

/-- The name of the format. -/
def kind : Family → Text
  | .base58Check _ => "base58check".toList
  | .segWit _ => "segwit".toList
  | .cashAddr _ => "cashaddr".toList
  | .evm => "evm".toList
  | .tron => "tron".toList
  | .cosmos _ => "cosmos-bech32".toList
  | .ripple => "xrp".toList
  | .ss58 _ => "ss58".toList
  | .solana => "solana".toList
  | .sui => "sui".toList
  | .ton => "ton".toList

/-- The parameter of the format as text. -/
def parameter? : Family → Option Text
  | .base58Check version => some ('0' :: 'x' :: Hex.encode version)
  | .segWit hrp => some hrp
  | .cashAddr label => some label
  | .cosmos hrp => some hrp
  | .ss58 network => some (Text.ofNat network.toNat)
  | .evm | .tron | .ripple | .solana | .sui | .ton => none

/-- The name with the parameter directly behind it between brackets. -/
def toText (family : Family) : Text :=
  match family.parameter? with
  | some parameter => family.kind ++ ['('] ++ parameter ++ [')']
  | none => family.kind

/-- The curve whose keys the family encodes. -/
def curve : Family → Curve
  | .base58Check _ | .segWit _ | .cashAddr _ | .evm | .tron | .cosmos _ | .ripple => .secp256k1
  | .ss58 _ | .solana | .sui | .ton => .ed25519

/-- Whether the format has a checksum; the addresses of two chains are bare key material. -/
def hasChecksum : Family → Bool
  | .solana | .sui => false
  | .base58Check _ | .segWit _ | .cashAddr _ | .evm | .tron | .cosmos _ | .ripple | .ss58 _
  | .ton => true

end Family

end CoinAddress

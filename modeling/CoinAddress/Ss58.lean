import CoinAddress.Digest.Blake2b
import CoinAddress.Error

/-!
# Addresses of Substrate chains

A network number, an account of 32 bytes and two checksum bytes, in Base58.

A network number below 64 takes one byte. Up to 16383 it takes two: the first holds bits 2 to 7
below a mark, the second holds bits 8 to 13 and, at its top, bits 0 and 1.
-/

namespace CoinAddress.Ss58

/-- How long an account is. -/
def accountLength : Nat := 32

/-- How many bytes of the digest are kept. -/
def checksumLength : Nat := 2

/-- The largest network number that two bytes hold. -/
def maxNetwork : UInt16 := 0x3fff

/-- What the digest starts with, so that it is used for nothing else. -/
def context : Bytes := Text.utf8 "SS58PRE".toList

/-- The checksum of a body. -/
def checksum (body : Bytes) : Bytes := (Blake2b.hash 64 (context ++ body)).take checksumLength

/-- The bytes of a network number that fits. -/
def networkBytes (network : UInt16) : Bytes :=
  if network < 64 then [network.toUInt8]
  else
    [((network &&& 0x00fc) >>> 2).toUInt8 ||| 0x40,
     (network >>> 8).toUInt8 ||| ((network &&& 0x0003) <<< 6).toUInt8]

/-- The network number at the start of a byte string, and how many bytes it takes. -/
def networkOf : Bytes → Except AddressError (UInt16 × Nat)
  | [] => .error (.payloadTooShort (1 + accountLength + checksumLength) 0)
  | first :: rest =>
    if first < 64 then .ok (first.toUInt16, 1)
    else if first < 128 then
      match rest with
      | [] => .error (.payloadTooShort (1 + accountLength + checksumLength) 1)
      | second :: _ =>
        let low := ((first <<< 2) ||| (second >>> 6)).toUInt16
        let high := (second &&& 0x3f).toUInt16
        .ok (low ||| (high <<< 8), 2)
    else .error (.invalidPrefix "ss58 prefix byte < 128".toList (byteText first))

/-- The text of an account on a network. -/
def encode (network : UInt16) (account : Bytes) : Except AddressError Text :=
  if account.length ≠ accountLength then
    .error (.invalidEncoding (.ss58AccountLength account.length))
  else if maxNetwork < network then
    .error (.invalidPrefix ("network id <= ".toList ++ Text.ofNat maxNetwork.toNat)
      (Text.ofNat network.toNat))
  else
    let body := networkBytes network ++ account
    .ok (Base58.encode (body ++ checksum body))

/-- The network number and the account of a text. -/
def decode (s : Text) : Except AddressError (UInt16 × Bytes) := do
  let data ← (Base58.decode s).mapError AddressError.ofBase58
  let (network, networkLength) ← networkOf data
  let bodyLength := networkLength + accountLength
  let expected := bodyLength + checksumLength
  if data.length < expected then .error (.payloadTooShort expected data.length)
  else if expected < data.length then
    .error (.invalidEncoding (.ss58Length data.length expected))
  else
    let body := data.take bodyLength
    if checksum body ≠ data.drop bodyLength then .error .checksumMismatch
    else .ok (network, body.drop networkLength)

/-- The account of a text that must be of this network. -/
def decodeFor (network : UInt16) (s : Text) : Except AddressError Bytes := do
  let (found, account) ← decode s
  if found ≠ network then
    .error (.invalidPrefix (Text.ofNat network.toNat) (Text.ofNat found.toNat))
  else .ok account

end CoinAddress.Ss58

import CoinAddress.Digest.Sha256
import CoinAddress.Error

/-!
# Base58 with a version and a checksum

A version of any length, a payload, and the first four bytes of the double SHA-256 of both, all in
Base58. The version's length is not written down, so a reader has to know it.
-/

namespace CoinAddress.Base58Check

/-- How many bytes of the digest are kept. -/
def checksumLength : Nat := 4

/-- The checksum of a body. -/
def checksum (body : Bytes) : Bytes := (Sha256.doubleHash body).take checksumLength

@[simp] theorem length_checksum (body : Bytes) : (checksum body).length = 4 := by
  simp [checksum, checksumLength]

/-- Version, payload and checksum in one byte string. -/
def withChecksum (version payload : Bytes) : Bytes :=
  version ++ payload ++ checksum (version ++ payload)

/-- The text of a version and a payload. -/
def encode (version payload : Bytes) : Text := Base58.encode (withChecksum version payload)

/-- What a checked byte string holds. -/
structure Versioned where
  version : Bytes
  payload : Bytes
  deriving DecidableEq, Repr

/-- Checks and removes the checksum, and splits off a version of the given length. -/
def verify (data : Bytes) (versionLength : Nat) : Except AddressError Versioned :=
  if data.length < versionLength + checksumLength then
    .error (.payloadTooShort (versionLength + checksumLength) data.length)
  else
    let body := data.take (data.length - checksumLength)
    if checksum body = data.drop (data.length - checksumLength) then
      .ok ⟨body.take versionLength, body.drop versionLength⟩
    else .error .checksumMismatch

/-- Reads a text whose version has the given length. -/
def decode (s : Text) (versionLength : Nat) : Except AddressError Versioned := do
  let data ← (Base58.decode s).mapError AddressError.ofBase58
  verify data versionLength

/-- Reads a text that must have exactly this version and a payload of this length. -/
def decodeExpecting (s : Text) (version : Bytes) (payloadLength : Nat) :
    Except AddressError Bytes := do
  let found ← decode s version.length
  if found.version ≠ version then
    .error (.invalidPrefix (Hex.encode version) (Hex.encode found.version))
  else if found.payload.length ≠ payloadLength then
    .error (.invalidEncoding (.payloadLength found.payload.length payloadLength))
  else .ok found.payload

/-- What is joined with its checksum is taken apart again. -/
theorem verify_withChecksum (version payload : Bytes) :
    verify (withChecksum version payload) version.length = .ok ⟨version, payload⟩ := by
  have hlen : (withChecksum version payload).length = version.length + payload.length + 4 := by
    simp [withChecksum, Nat.add_assoc]
  have hcut : (withChecksum version payload).length - checksumLength =
      (version ++ payload).length := by
    rw [hlen, checksumLength, List.length_append]
    omega
  have htake : (withChecksum version payload).take (version ++ payload).length =
      version ++ payload := List.take_left
  have hdrop : (withChecksum version payload).drop (version ++ payload).length =
      checksum (version ++ payload) := List.drop_left
  rw [verify, if_neg (by rw [hlen, checksumLength]; omega), hcut, htake, hdrop]
  simp

/-- **What is written is read back,** for a version of any length and any payload. -/
theorem decode_encode (version payload : Bytes) :
    decode (encode version payload) version.length = .ok ⟨version, payload⟩ := by
  rw [decode, encode, Base58.decode_encode]
  exact verify_withChecksum version payload

end CoinAddress.Base58Check

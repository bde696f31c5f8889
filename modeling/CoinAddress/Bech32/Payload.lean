import CoinAddress.Error

/-!
# Payloads in Bech32

Bytes under a human-readable part, either bare or as a witness program behind a version word. Only
the first of the two checksums is written and accepted.

A witness program of version 0 has 20 or 32 bytes. Writing one does not check the length.
-/

namespace CoinAddress.Bech32

/-- The words of a text under the human-readable part `hrp`. -/
def decodeWords (s hrp : Text) : Except AddressError Bytes := do
  let parts ← (parse s).mapError AddressError.ofBech32
  if parts.hrp ≠ hrp then .error (.invalidPrefix hrp parts.hrp)
  else if parts.variant ≠ .bech32 then .error (.invalidEncoding .bech32mChecksum)
  else .ok parts.words

/-- The text of bytes under a human-readable part. -/
def encode (hrp : Text) (payload : Bytes) : Except AddressError Text :=
  (print hrp (Regroup.ofBytes 5 payload)).mapError AddressError.ofBech32

/-- The bytes of a text under a human-readable part. -/
def decode (s hrp : Text) : Except AddressError Bytes := do
  let words ← decodeWords s hrp
  (bytesOfWords words).mapError AddressError.ofBech32

/-- The text of a witness program of version 0. -/
def encodeWitness (hrp : Text) (program : Bytes) : Except AddressError Text :=
  (print hrp (0 :: Regroup.ofBytes 5 program)).mapError AddressError.ofBech32

/-- The witness program of version 0 that a text holds. -/
def decodeWitness (s hrp : Text) : Except AddressError Bytes := do
  match ← decodeWords s hrp with
  | [] => .error (.invalidEncoding .noWitnessProgram)
  | version :: words =>
    if version ≠ 0 then .error (.invalidEncoding (.witnessVersion version.toNat))
    else
      let program ← (bytesOfWords words).mapError AddressError.ofBech32
      if program.length = 20 ∨ program.length = 32 then .ok program
      else .error (.invalidEncoding (.witnessProgramLength program.length))

end CoinAddress.Bech32

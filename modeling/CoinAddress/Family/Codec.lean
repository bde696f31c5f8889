import CoinAddress.Base58.Alphabet
import CoinAddress.Bech32.Payload
import CoinAddress.CashAddr
import CoinAddress.Family.Evm
import CoinAddress.Ss58
import CoinAddress.Ton.Wallet

/-!
# Addresses of a family

For each family, the address of a public key, and the check that a text is an address. Checking
looks at the form only: checksum, version or other parameter, and length.

`Family.encode` first refuses keys whose length does not suit the family's curve. The functions
for one format do not; they leave the length to what they do with the key.
-/

namespace CoinAddress

namespace Tron

/-- The version of a main network account. -/
def accountVersion : Bytes := [0x41]

/-- The text of an account. -/
def encode (account : Bytes) : Text := Base58Check.encode accountVersion account

/-- The account of a text. -/
def decode (s : Text) : Except AddressError Bytes :=
  Base58Check.decodeExpecting s accountVersion 20

/-- Refuses what does not start with a capital T, and what is no account. -/
def validate (s : Text) : Except AddressError Unit :=
  if s.head? = some 'T' then (decode s).map fun _ => ()
  else .error (.invalidPrefix ['T'] [s.headD ' '])

end Tron

namespace Solana

/-- The text of a key. -/
def encode (key : Bytes) : Except AddressError Text := do
  let key ← Account.edKey key
  .ok (Base58.encode key)

/-- Refuses what is not the Base58 of 32 bytes. -/
def validate (s : Text) : Except AddressError Unit := do
  let bytes ← (Base58.decode s).mapError AddressError.ofBase58
  if bytes.length = 32 then .ok () else .error (.invalidEncoding (.solanaLength bytes.length))

end Solana

namespace Sui

/-- The text of the account of a key. -/
def encode (key : Bytes) : Except AddressError Text := do
  let account ← Account.sui key
  .ok ('0' :: 'x' :: Hex.encode account)

/-- The digits of a text behind its mark. -/
def digitsOf : Text → Except AddressError Text
  | '0' :: 'x' :: s => .ok s
  | s => .error (.invalidPrefix ['0', 'x'] (s.take 2))

/-- Refuses what is not a mark and 64 digits. -/
def validate (s : Text) : Except AddressError Unit := do
  let digits ← digitsOf s
  Evm.checkDigits digits
  if digits.length = 64 then .ok () else .error (.invalidEncoding (.suiDigits digits.length))

end Sui

namespace Cosmos

/-- Refuses what is not 20 or 32 bytes under the human-readable part. -/
def validate (hrp s : Text) : Except AddressError Unit := do
  let payload ← Bech32.decode s hrp
  if payload.length = 20 ∨ payload.length = 32 then .ok ()
  else .error (.invalidEncoding (.cosmosPayloadLength hrp payload.length))

end Cosmos

namespace Family

/-- The address of a key, whose length has not been checked. -/
def encodeKey (family : Family) (key : Bytes) : Except AddressError Text :=
  match family with
  | .base58Check version => (Account.givenHash key).map (Base58Check.encode version)
  | .segWit hrp => do Bech32.encodeWitness hrp (← Account.compressedHash key)
  | .cashAddr label => do CashAddr.encode label CashAddr.payToKey (← Account.compressedHash key)
  | .evm => (Account.evm key).map Evm.checksumText
  | .tron => (Account.evm key).map Tron.encode
  | .cosmos hrp => do Bech32.encode hrp (← Account.compressedHash key)
  | .ripple => do Ripple.encode (← Account.givenHash key)
  | .ss58 network => do Ss58.encode network (← Account.edKey key)
  | .solana => Solana.encode key
  | .sui => Sui.encode key
  | .ton => (Account.edKey key).map fun key => (Ton.Wallet.address key).toText

/-- The address of a key. -/
def encode (family : Family) (key : Bytes) : Except AddressError Text := do
  family.curve.checkLength key.length
  family.encodeKey key

/-- Refuses a text that is not an address of the family. -/
def validate (family : Family) (s : Text) : Except AddressError Unit :=
  match family with
  | .base58Check version => (Base58Check.decodeExpecting s version 20).map fun _ => ()
  | .segWit hrp => (Bech32.decodeWitness s hrp).map fun _ => ()
  | .cashAddr label => (CashAddr.decode s label).map fun _ => ()
  | .evm => Evm.validate s
  | .tron => Tron.validate s
  | .cosmos hrp => Cosmos.validate hrp s
  | .ripple => (Ripple.decode s).map fun _ => ()
  | .ss58 network => (Ss58.decodeFor network s).map fun _ => ()
  | .solana => Solana.validate s
  | .sui => Sui.validate s
  | .ton => (Ton.parse s).map fun _ => ()

end Family

end CoinAddress

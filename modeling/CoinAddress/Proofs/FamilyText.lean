import CoinAddress.Proofs.Base58Checked
import CoinAddress.Proofs.CashAddrText
import CoinAddress.Proofs.HexText
import CoinAddress.Proofs.Ss58Text
import CoinAddress.Proofs.TonForms
import CoinAddress.Resolver

/-!
# What a family accepts and what it writes

For each family, the texts that `Family.validate` accepts, in terms of the accounts they are
written for, and what `Family.encode` makes of a key. Everything said about families later on
starts from these equivalences, so nothing there looks into a format.
-/

namespace CoinAddress

/-! ## Accounts of a key -/

namespace Account

/-- The only way to fail is not to be a point. -/
theorem pointOf_eq_ok_iff {key : Bytes} {p : Secp256k1.Point} :
    pointOf key = .ok p ↔ Secp256k1.Point.ofBytes? key = some p := by
  rw [pointOf]
  cases Secp256k1.Point.ofBytes? key <;> simp

/-! Once a key is known to be a point, none of the three hashes can fail. -/

section

variable {key : Bytes} {p : Secp256k1.Point} (h : Secp256k1.Point.ofBytes? key = some p)

include h

theorem compressedHash_of_point : compressedHash key = .ok (Ripemd160.keyHash p.compressed) := by
  rw [compressedHash, pointOf_eq_ok_iff.2 h]
  rfl

theorem givenHash_of_point : givenHash key = .ok (Ripemd160.keyHash key) := by
  rw [givenHash, pointOf_eq_ok_iff.2 h]
  rfl

theorem evm_of_point : evm key = .ok ((Keccak256.hash p.coordinates).drop 12) := by
  rw [evm, pointOf_eq_ok_iff.2 h]
  rfl

end

theorem length_of_compressedHash {key hash : Bytes} (h : compressedHash key = .ok hash) :
    hash.length = 20 := by
  obtain ⟨p, -, hp⟩ := bind_eq_ok_iff.1 h
  cases hp
  exact Ripemd160.length_keyHash _

theorem length_of_givenHash {key hash : Bytes} (h : givenHash key = .ok hash) :
    hash.length = 20 := by
  obtain ⟨p, -, hp⟩ := bind_eq_ok_iff.1 h
  cases hp
  exact Ripemd160.length_keyHash _

/-- An account of the family `evm` is what is left of a digest behind its first 12 bytes. -/
theorem length_of_evm {key account : Bytes} (h : evm key = .ok account) : account.length = 20 := by
  obtain ⟨p, -, hp⟩ := bind_eq_ok_iff.1 h
  cases hp
  rw [List.length_drop, Keccak256.length_hash]

/-- A key of ed25519 stands for itself; only its length is checked. -/
theorem edKey_eq_ok_iff {key out : Bytes} : edKey key = .ok out ↔ key.length = 32 ∧ out = key := by
  rw [edKey]
  by_cases h : key.length = 32
  · rw [if_pos h, Except.ok.injEq]
    exact ⟨fun he => ⟨h, he.symm⟩, fun he => he.2.symm⟩
  · rw [if_neg h]
    simp [h]

end Account

/-! ## Texts that are accepted -/

namespace Family

/-- Just the texts of the accounts of 20 bytes are accepted, with the version of the family. -/
theorem validate_base58Check_iff {version : Bytes} {s : Text} :
    (base58Check version).validate s = .ok () ↔
      ∃ account : Bytes, account.length = 20 ∧ s = Base58Check.encode version account := by
  rw [validate, map_unit_eq_ok_iff]
  exact exists_congr fun account => Base58Check.decodeExpecting_eq_ok_iff.trans and_comm

/-- Just the texts of the programs of version 0 are accepted, in either letter case but not in
both, and only if the prefix can be written. -/
theorem validate_segWit_iff {hrp s : Text} :
    (segWit hrp).validate s = .ok () ↔ ∃ program : Bytes,
      (program.length = 20 ∨ program.length = 32) ∧ Text.mixedCase s = false ∧ Bech32.Usable hrp ∧
        s.map Char.toLower = Bech32.textOf hrp (0 :: Regroup.ofBytes 5 program) := by
  rw [validate, map_unit_eq_ok_iff]
  exact exists_congr fun program => Bech32.decodeWitness_eq_ok_iff

/-- The same for payloads, which have no version in front. -/
theorem validate_cosmos_iff {hrp s : Text} :
    (cosmos hrp).validate s = .ok () ↔ ∃ payload : Bytes,
      (payload.length = 20 ∨ payload.length = 32) ∧ Text.mixedCase s = false ∧ Bech32.Usable hrp ∧
        s.map Char.toLower = Bech32.textOf hrp (Regroup.ofBytes 5 payload) := by
  rw [validate, Cosmos.validate_eq_ok_iff]
  exact exists_congr fun payload => and_congr_right fun _ => Bech32.decode_eq_ok_iff

/-- The label can be left out, and of the version only the three bits of the size are looked at. -/
theorem validate_cashAddr_iff {label s : Text} (hcolon : ':' ∉ label) :
    (cashAddr label).validate s = .ok () ↔ ∃ (version : UInt8) (hash : Bytes),
      Text.mixedCase s = false ∧ version &&& 0x07 = 0 ∧ hash.length = 20 ∧
        (s.map Char.toLower = label ++ ':' :: CashAddr.bodyOf label version hash ∨
          s.map Char.toLower = CashAddr.bodyOf label version hash) := by
  rw [validate, map_unit_eq_ok_iff, Prod.exists]
  exact exists_congr fun version => exists_congr fun hash => CashAddr.decode_eq_ok_iff hcolon

/-- Digits in one letter case have no checksum. In both cases they must be those that go with the
checksum. -/
theorem validate_evm_iff {s : Text} :
    evm.validate s = .ok () ↔ ∃ account digits, account.length = 20 ∧
      Evm.digitsOf s = .ok digits ∧ digits.map Char.toLower = Hex.encode account ∧
        (Text.mixedCase digits = false ∨ digits = Evm.checksumDigits account) :=
  Evm.validate_eq_ok_iff

theorem validate_tron_iff {s : Text} :
    tron.validate s = .ok () ↔ ∃ account : Bytes, account.length = 20 ∧ s = Tron.encode account :=
  Tron.validate_eq_ok_iff

theorem validate_ripple_iff {s : Text} :
    ripple.validate s = .ok () ↔
      ∃ account : Bytes, account.length = 20 ∧ Ripple.encode account = .ok s := by
  rw [validate, map_unit_eq_ok_iff]
  exact exists_congr fun account => Ripple.decode_eq_ok_iff.trans and_comm

/-- An account is accepted behind every spelling of the network, so it can have two texts. -/
theorem validate_ss58_iff {network : UInt16} {s : Text} :
    (ss58 network).validate s = .ok () ↔ ∃ account : Bytes, account.length = 32 ∧
      ∃ front, Ss58.Names front network ∧ s = Ss58.textOf front account := by
  rw [validate, map_unit_eq_ok_iff]
  exact exists_congr fun account => Ss58.decodeFor_eq_ok_iff

/-- Every text of 32 bytes is accepted, since there is no checksum. -/
theorem validate_solana_iff {s : Text} :
    solana.validate s = .ok () ↔ ∃ key : Bytes, key.length = 32 ∧ s = Base58.encode key := by
  rw [validate, Solana.validate, bind_eq_ok_iff]
  refine exists_congr fun key => ?_
  rw [mapError_eq_ok_iff, Base58.decode_eq_ok_iff, guard_eq_ok_iff, and_comm]
  simp

/-- Every text of 64 digits is accepted behind the mark, in any letter case. -/
theorem validate_sui_iff {s : Text} :
    sui.validate s = .ok () ↔ ∃ digits, s = '0' :: 'x' :: digits ∧ digits.length = 64 ∧
      ∀ c ∈ digits, Hex.isDigit c :=
  Sui.validate_eq_ok_iff

theorem validate_ton_iff {s : Text} :
    ton.validate s = .ok () ↔ ∃ a, Ton.parse s = .ok a := by
  rw [validate, map_unit_eq_ok_iff]

end Family

/-- A chain accepts what its family accepts. -/
theorem validate_eq_ok_iff {chain : Chain} {s : Text} :
    validate chain s = .ok () ↔ chain.family.validate s = .ok () := mapError_eq_ok_iff

end CoinAddress

import CoinAddress.Proofs.Bech32Forms
import CoinAddress.Proofs.Resolution

/-!
# Addresses that are written are accepted

For every family whose parameter can stand in a text, the address of a key passes the family's own
check: `Family.validate_of_encodeKey`. The parameters of the chains can, so what is resolved is an
address of its chain. `written_is_accepted` says both.
-/

namespace CoinAddress

namespace Family

/-- Whether a parameter that becomes part of the text is in small letters, and can be cut off
again at the first colon. -/
def plain : Family → Bool
  | segWit hrp | cosmos hrp => !hrp.any Char.isUpper
  | cashAddr label => !label.any Char.isUpper && !label.elem ':'
  | base58Check _ | evm | tron | ripple | ss58 _ | solana | sui | ton => true

theorem noUpper_of_any {s : Text} (h : (!s.any Char.isUpper) = true) : ∀ c ∈ s, ¬ c.isUpper := by
  intro c hc hu
  rw [Bool.not_eq_true', List.any_eq_false] at h
  exact h c hc hu

/-- A prefix in small letters comes back as it was given, so the text is one of this prefix. -/
theorem validate_segWit_of_encode {hrp : Text} (hlow : ∀ c ∈ hrp, ¬ c.isUpper) {program : Bytes}
    (hlen : program.length = 20) {s : Text} (h : Bech32.encodeWitness hrp program = .ok s) :
    (segWit hrp).validate s = .ok () := by
  rw [validate, map_unit_eq_ok_iff]
  exact ⟨program, (Bech32.decodeWitness_iff_forms (.inl hlen) hlow h s).2 (.inl rfl)⟩

theorem validate_cosmos_of_encode {hrp : Text} (hlow : ∀ c ∈ hrp, ¬ c.isUpper) {payload : Bytes}
    (hlen : payload.length = 20) {s : Text} (h : Bech32.encode hrp payload = .ok s) :
    (cosmos hrp).validate s = .ok () := by
  rw [validate]
  exact Bech32.validate_cosmos_iff_forms.2 ⟨hlow, payload, s, .inl hlen, h, .inl rfl⟩

/-- A label without a colon is cut off where it ends. -/
theorem validate_cashAddr_of_encode {label : Text} (hlow : ∀ c ∈ label, ¬ c.isUpper)
    (hcolon : ':' ∉ label) {hash : Bytes} {s : Text}
    (h : CashAddr.encode label CashAddr.payToKey hash = .ok s) :
    (cashAddr label).validate s = .ok () := by
  obtain ⟨hlen, rfl⟩ := CashAddr.encode_eq_ok_iff.1 h
  have hnone := CashAddr.noUpper_address hlow CashAddr.payToKey hash
  exact (validate_cashAddr_iff hcolon).2 ⟨CashAddr.payToKey, hash, Text.mixedCase_of_noUpper hnone,
    by decide, hlen, .inl (Text.map_toLower_of_noUpper hnone)⟩

/-- The checksum that is written is the one that is looked for. -/
theorem validate_evm_checksumText {account : Bytes} (hlen : account.length = 20) :
    evm.validate (Evm.checksumText account) = .ok () :=
  validate_evm_iff.2 ⟨account, Evm.checksumDigits account, hlen, rfl,
    Evm.map_toLower_checksumDigits account, .inr rfl⟩

theorem validate_ss58_of_encode {network : UInt16} {account : Bytes} {s : Text}
    (h : Ss58.encode network account = .ok s) : (ss58 network).validate s = .ok () := by
  obtain ⟨hlen, hmax, rfl⟩ := Ss58.encode_eq_ok_iff.1 h
  exact validate_ss58_iff.2 ⟨account, hlen, _, Ss58.names_networkBytes hmax, rfl⟩

/-- A digest of 32 bytes has the 64 digits that are looked for. -/
theorem validate_sui_of_encode {key : Bytes} {s : Text} (h : Sui.encode key = .ok s) :
    sui.validate s = .ok () := by
  obtain ⟨account, haccount, hs⟩ := bind_eq_ok_iff.1 h
  cases hs
  obtain ⟨key', -, hkey'⟩ := bind_eq_ok_iff.1 haccount
  cases hkey'
  refine validate_sui_iff.2 ⟨_, rfl, ?_, fun c hc => ?_⟩
  · rw [Hex.length_encode, Blake2b.length_hash (by decide)]
  · obtain ⟨d, hd, rfl⟩ := Hex.exists_digit_of_mem_encode hc
    rw [Hex.isDigit, Hex.digitValue?_digitChar hd]
    rfl

theorem validate_solana_of_encode {key : Bytes} {s : Text} (h : Solana.encode key = .ok s) :
    solana.validate s = .ok () := by
  obtain ⟨key', hkey', hs⟩ := bind_eq_ok_iff.1 h
  cases hs
  obtain ⟨hlen, rfl⟩ := Account.edKey_eq_ok_iff.1 hkey'
  exact validate_solana_iff.2 ⟨key', hlen, rfl⟩

/-- **What a family writes for a key, the family accepts.** -/
theorem validate_of_encodeKey {family : Family} (hplain : family.plain) {key : Bytes} {s : Text}
    (h : family.encodeKey key = .ok s) : family.validate s = .ok () := by
  cases family with
  | base58Check version =>
    obtain ⟨hash, hhash, rfl⟩ := map_eq_ok_iff.1 h
    exact validate_base58Check_iff.2 ⟨hash, Account.length_of_givenHash hhash, rfl⟩
  | segWit hrp =>
    obtain ⟨hash, hhash, hs⟩ := bind_eq_ok_iff.1 h
    exact validate_segWit_of_encode (noUpper_of_any hplain)
      (Account.length_of_compressedHash hhash) hs
  | cashAddr label =>
    obtain ⟨hash, -, hs⟩ := bind_eq_ok_iff.1 h
    rw [plain, Bool.and_eq_true] at hplain
    exact validate_cashAddr_of_encode (noUpper_of_any hplain.1) (by simpa using hplain.2) hs
  | evm =>
    obtain ⟨account, haccount, rfl⟩ := map_eq_ok_iff.1 h
    exact validate_evm_checksumText (Account.length_of_evm haccount)
  | tron =>
    obtain ⟨account, haccount, rfl⟩ := map_eq_ok_iff.1 h
    exact validate_tron_iff.2 ⟨account, Account.length_of_evm haccount, rfl⟩
  | cosmos hrp =>
    obtain ⟨hash, hhash, hs⟩ := bind_eq_ok_iff.1 h
    exact validate_cosmos_of_encode (noUpper_of_any hplain)
      (Account.length_of_compressedHash hhash) hs
  | ripple =>
    obtain ⟨hash, hhash, hs⟩ := bind_eq_ok_iff.1 h
    exact validate_ripple_iff.2 ⟨hash, Account.length_of_givenHash hhash, hs⟩
  | ss58 network =>
    obtain ⟨account, -, hs⟩ := bind_eq_ok_iff.1 h
    exact validate_ss58_of_encode hs
  | solana => exact validate_solana_of_encode h
  | sui => exact validate_sui_of_encode h
  | ton =>
    obtain ⟨key', -, rfl⟩ := map_eq_ok_iff.1 h
    exact validate_ton_iff.2 ⟨_, Ton.parse_toText (.inl rfl)⟩

end Family

/-- The parameters of all chains can stand in a text. -/
theorem Chain.plain_family (chain : Chain) : chain.family.plain := by
  cases chain <;> decide

/-- **What is written is accepted:** by the family that writes it, for any key it takes and any
parameter that can stand in a text, and by the chain that an address is resolved for. -/
theorem written_is_accepted :
    (∀ (family : Family) (key : Bytes) (s : Text), family.plain → family.encode key = .ok s →
      family.validate s = .ok ()) ∧
    ∀ (chain : Chain) (curve : Curve) (bytes : Bytes) (a : Address),
      resolveBytes chain curve bytes = .ok a →
        a.chain = chain ∧ validate chain a.text = .ok () := by
  constructor
  · intro family key s hplain h
    obtain ⟨-, -, hs⟩ := bind_eq_ok_iff.1 h
    exact Family.validate_of_encodeKey hplain hs
  · intro chain curve bytes a h
    obtain ⟨-, -, hchain, htext⟩ := resolveBytes_eq_ok_iff.1 h
    have hvalid := Family.validate_of_encodeKey chain.plain_family htext
    exact ⟨hchain, validate_eq_ok_iff.2 hvalid⟩

/-- A compressed key. -/
def sampleKey : Bytes :=
  [0x02, 0x7e, 0x89, 0x7b, 0x35, 0xaa, 0x9f, 0x9f, 0xff, 0x22, 0x3b, 0x6c, 0x82, 0x6f, 0xf4, 0x2d,
   0xa3, 0x7e, 0x81, 0x69, 0xfa, 0xe7, 0xbe, 0x57, 0xcb, 0xd3, 0x8b, 0xe8, 0x69, 0x38, 0xa7, 0x46,
   0xc6]

/-- The address of a key on Dash. -/
theorem written_is_accepted_sample :
    (Family.base58Check [0x4c]).validate "XyE3CvdTo39hsMsZxh9gjjJUDkjVTiWH8M".toList = .ok () ∧
      validate .dash "XyE3CvdTo39hsMsZxh9gjjJUDkjVTiWH8M".toList = .ok () :=
  ⟨written_is_accepted.1 (.base58Check [0x4c]) sampleKey _ rfl (by decide +kernel),
    (written_is_accepted.2 .dash .secp256k1 sampleKey
      ⟨.dash, "XyE3CvdTo39hsMsZxh9gjjJUDkjVTiWH8M".toList⟩ (by decide +kernel)).2⟩

end CoinAddress

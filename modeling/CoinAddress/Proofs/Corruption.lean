import CoinAddress.Proofs.Replacement
import CoinAddress.Proofs.Roundtrip

/-!
# One wrong character in an address

What becomes of the address of a key when one character is replaced by another one of its alphabet,
or, on EVM chains, when the case of one letter is changed.

Where the checksum is a remainder or the case of the letters, the text is not accepted. In the
formats on Base58 the checksum is the first bytes of a digest, which any change of the bytes may
leave as they are. There the text is accepted just when it is the address of another account, and
such texts exist: `validate_corrupted_iff` and `exists_corrupted_accepted`.
-/

namespace CoinAddress

namespace Family

/-- One wrong character in an address: behind the human-readable part or label, or anywhere if
there is none. Formats without a checksum have no such texts. -/
def Corrupts (family : Family) (s t : Text) : Prop :=
  match family with
  | base58Check _ | tron | ss58 _ => Replaced Base58.digits 0 s t
  | ripple => Replaced Ripple.alphabet 0 s t
  | segWit hrp | cosmos hrp => Replaced Base32.digits (hrp.length + 1) s t
  | cashAddr label => Replaced Base32.digits (label.length + 1) s t
  | ton => Replaced Base64.Alphabet.urlSafe.digits 0 s t
  | evm => Evm.Flipped s t
  | solana | sui => False

/-- Whether the checksum is the first bytes of a digest. -/
def digestChecked : Family → Bool
  | base58Check _ | tron | ripple | ss58 _ => true
  | segWit _ | cashAddr _ | evm | cosmos _ | solana | sui | ton => false

/-- The texts of an account, where the checksum is the first bytes of a digest. -/
inductive Spells : Family → Bytes → Text → Prop
  | base58Check (version : Bytes) {account : Bytes} (h : account.length = 20) :
      Spells (base58Check version) account (Base58Check.encode version account)
  | tron {account : Bytes} (h : account.length = 20) : Spells tron account (Tron.encode account)
  | ripple {account : Bytes} {s : Text} (h : account.length = 20)
      (hs : Ripple.encode account = .ok s) : Spells ripple account s
  | ss58 {network : UInt16} {front account : Bytes} (h : account.length = 32)
      (hfront : Ss58.Names front network) :
      Spells (ss58 network) account (Ss58.textOf front account)

/-! ## Checksums that are digests -/

theorem validate_iff_spells {family : Family} (hdigest : family.digestChecked) {s : Text} :
    family.validate s = .ok () ↔ ∃ account, family.Spells account s := by
  cases family with
  | base58Check version =>
    rw [validate_base58Check_iff]
    constructor
    · rintro ⟨account, hlen, rfl⟩
      exact ⟨account, .base58Check version hlen⟩
    · rintro ⟨account, hspells⟩
      cases hspells with
      | base58Check version hlen => exact ⟨account, hlen, rfl⟩
  | tron =>
    rw [validate_tron_iff]
    constructor
    · rintro ⟨account, hlen, rfl⟩
      exact ⟨account, .tron hlen⟩
    · rintro ⟨account, hspells⟩
      cases hspells with
      | tron hlen => exact ⟨account, hlen, rfl⟩
  | ripple =>
    rw [validate_ripple_iff]
    constructor
    · rintro ⟨account, hlen, hs⟩
      exact ⟨account, .ripple hlen hs⟩
    · rintro ⟨account, hspells⟩
      cases hspells with
      | ripple hlen hs => exact ⟨account, hlen, hs⟩
  | ss58 network =>
    rw [validate_ss58_iff]
    constructor
    · rintro ⟨account, hlen, front, hfront, rfl⟩
      exact ⟨account, .ss58 hlen hfront⟩
    · rintro ⟨account, hspells⟩
      cases hspells with
      | ss58 hlen hfront => exact ⟨account, hlen, _, hfront, rfl⟩
  | segWit hrp | cashAddr label | evm | cosmos hrp | solana | sui | ton => cases hdigest

/-- **Texts of one length do not spell the same account.** -/
theorem Spells.text_eq {family : Family} (hnetwork : ∀ n, family = Family.ss58 n → n = 0)
    {account : Bytes} {s t : Text} (hs : family.Spells account s) (ht : family.Spells account t)
    (hlen : s.length = t.length) : s = t := by
  cases hs with
  | base58Check version h =>
    cases ht
    rfl
  | tron h =>
    cases ht
    rfl
  | ripple h hs =>
    cases ht with
    | ripple h' ht => exact Except.ok.inj (hs.symm.trans ht)
  | @ss58 network front account h hfront =>
    cases ht with
    | @ss58 network front' account h' hfront' =>
      rw [hnetwork network rfl] at hfront hfront'
      rcases Ss58.eq_of_names_zero hfront with rfl | rfl <;>
        rcases Ss58.eq_of_names_zero hfront' with rfl | rfl
      · rfl
      · exact absurd hlen (Ss58.length_textOf_zero_ne h)
      · exact absurd hlen.symm (Ss58.length_textOf_zero_ne h)
      · rfl

theorem Corrupts.replaced {family : Family} (hdigest : family.digestChecked) {s t : Text}
    (h : family.Corrupts s t) : ∃ alphabet kept, Replaced alphabet kept s t := by
  cases family with
  | base58Check version | tron | ss58 network | ripple => exact ⟨_, _, h⟩
  | segWit hrp | cashAddr label | evm | cosmos hrp | solana | sui | ton => cases hdigest

/-! ## The other checksums -/

/-- **Where the checksum is no digest, one wrong character leaves no address.** -/
theorem not_validate_of_corrupts {family : Family} (hplain : family.plain)
    (hdigest : family.digestChecked = false) {key : Bytes} {s t : Text}
    (hs : family.encodeKey key = .ok s) (ht : family.Corrupts s t) :
    family.validate t ≠ .ok () := by
  intro hvalid
  cases family with
  | segWit hrp =>
    obtain ⟨hash, -, hs⟩ := bind_eq_ok_iff.1 hs
    obtain ⟨-, rfl⟩ := (Bech32.encodeWitness_eq_ok_iff (noUpper_of_any hplain)).1 hs
    obtain ⟨program, -, -, -, htext⟩ := validate_segWit_iff.1 hvalid
    exact Bech32.not_replaced (noUpper_of_any hplain) Bech32.lt_of_mem_witnessWords
      Bech32.lt_of_mem_witnessWords htext ht
  | cosmos hrp =>
    obtain ⟨hash, -, hs⟩ := bind_eq_ok_iff.1 hs
    obtain ⟨-, rfl⟩ := (Bech32.encode_eq_ok_iff (noUpper_of_any hplain)).1 hs
    obtain ⟨payload, -, -, -, htext⟩ := validate_cosmos_iff.1 hvalid
    exact Bech32.not_replaced (noUpper_of_any hplain) Bech32.lt_of_mem_words
      Bech32.lt_of_mem_words htext ht
  | cashAddr label =>
    obtain ⟨hash, -, hs⟩ := bind_eq_ok_iff.1 hs
    obtain ⟨-, rfl⟩ := CashAddr.encode_eq_ok_iff.1 hs
    rw [plain, Bool.and_eq_true] at hplain
    obtain ⟨version, hash', -, -, -, htext⟩ :=
      (validate_cashAddr_iff (by simpa using hplain.2)).1 hvalid
    exact CashAddr.not_replaced (noUpper_of_any hplain.1) htext ht
  | evm =>
    obtain ⟨account, -, rfl⟩ := map_eq_ok_iff.1 hs
    exact Evm.not_flipped hvalid ht
  | ton =>
    obtain ⟨key', -, rfl⟩ := map_eq_ok_iff.1 hs
    obtain ⟨a, ha⟩ := validate_ton_iff.1 hvalid
    exact Ton.not_replaced ha ht
  | solana | sui => exact ht
  | base58Check version | tron | ripple | ss58 network => cases hdigest

end Family

theorem Chain.network_eq_zero {chain : Chain} {n : UInt16} (h : chain.family = .ss58 n) :
    n = 0 := by
  cases chain with
  | polkadot => exact (Family.ss58.inj h).symm
  | _ => cases h

/-- **When one wrong character leaves an address of the chain:** never if the checksum is a
remainder or the case of the letters. Where it is the first bytes of a digest, just when the text
spells another account, under whose digest the same text stands. -/
theorem validate_corrupted_iff {chain : Chain} {key : PublicKey} {a : Address} {t : Text}
    (ha : resolve chain key = .ok a) (ht : chain.family.Corrupts a.text t) :
    validate chain t = .ok () ↔ chain.family.digestChecked ∧ ∃ account other,
      chain.family.Spells account a.text ∧ chain.family.Spells other t ∧ other ≠ account := by
  obtain ⟨-, -, -, htext⟩ := resolveBytes_eq_ok_iff.1 ha
  rw [validate_eq_ok_iff]
  constructor
  · intro hvalid
    by_cases hdigest : chain.family.digestChecked
    · have hwritten := Family.validate_of_encodeKey chain.plain_family htext
      obtain ⟨account, haccount⟩ := (Family.validate_iff_spells hdigest).1 hwritten
      obtain ⟨other, hother⟩ := (Family.validate_iff_spells hdigest).1 hvalid
      -- had both texts one account, they would be the same text, since they are equally long
      obtain ⟨alphabet, kept, hrep⟩ := ht.replaced hdigest
      refine ⟨hdigest, account, other, haccount, hother, ?_⟩
      rintro rfl
      exact hrep.ne (haccount.text_eq (fun n => Chain.network_eq_zero) hother hrep.length_eq.symm)
    · exact absurd hvalid (Family.not_validate_of_corrupts chain.plain_family
        (Bool.eq_false_iff.2 hdigest) htext ht)
  · rintro ⟨hdigest, -, other, -, hother, -⟩
    exact (Family.validate_iff_spells hdigest).2 ⟨other, hother⟩

theorem validate_corrupted_iff_polkadot :
    validate .polkadot "1j85PEVdv4s6gn2L6vV9fQKLG8dwXuMAyYnJu4KLkJHyEwr".toList = .ok () ∧
      ∃ account other,
        (Family.ss58 0).Spells account "1j85PEVdv4s6gn2L6vV9fQKLG8dwXuMAZYnJu4KLkJHyEwr".toList ∧
        (Family.ss58 0).Spells other "1j85PEVdv4s6gn2L6vV9fQKLG8dwXuMAyYnJu4KLkJHyEwr".toList ∧
          other ≠ account :=
  have hresolve : resolve .polkadot ⟨.ed25519, List.replicate 32 0x20, by decide⟩ =
      .ok ⟨.polkadot, "1j85PEVdv4s6gn2L6vV9fQKLG8dwXuMAZYnJu4KLkJHyEwr".toList⟩ := by
    decide +kernel
  have hreplaced : Replaced Base58.digits 0
      "1j85PEVdv4s6gn2L6vV9fQKLG8dwXuMAZYnJu4KLkJHyEwr".toList
      "1j85PEVdv4s6gn2L6vV9fQKLG8dwXuMAyYnJu4KLkJHyEwr".toList :=
    .of_eq "1j85PEVdv4s6gn2L6vV9fQKLG8dwXuMA".toList "YnJu4KLkJHyEwr".toList (c := 'Z') (d := 'y')
      (by decide +kernel) (by decide +kernel) (Nat.zero_le _) (by decide) (by decide)
  have hvalid : validate .polkadot
      "1j85PEVdv4s6gn2L6vV9fQKLG8dwXuMAyYnJu4KLkJHyEwr".toList = .ok () := by decide +kernel
  ⟨hvalid, ((validate_corrupted_iff hresolve hreplaced).1 hvalid).2⟩

/-! ## Addresses that are one character apart -/

/-- The address of a key is accepted with one wrong character in it. -/
structure AcceptsCorrupted (chain : Chain) (key : PublicKey) (address corrupted : String) :
    Prop where
  hasChecksum : chain.family.hasChecksum
  resolved : resolve chain key = .ok ⟨chain, address.toList⟩
  corrupts : chain.family.Corrupts address.toList corrupted.toList
  accepted : validate chain corrupted.toList = .ok ()

/-- The uncompressed key with these coordinates. -/
def uncompressedKey (x y : Nat) : PublicKey where
  curve := .secp256k1
  bytes := 0x04 :: (Bytes.beBytes 32 x ++ Bytes.beBytes 32 y)
  length_mem := by simp [Curve.keyLengths]

/-- **One wrong character can be overlooked** in each of the formats whose checksum is the first
bytes of a digest. -/
theorem exists_corrupted_accepted :
    AcceptsCorrupted .dogecoin
      (uncompressedKey 0x99ab637f3067c1c5672e4c4eeca9849a2645443acd5db3cb04afa69885d51640
        0x3204d12e8ec61fcfcd753146772388afd9f9fd7a801008f9c0ee928ef140456c)
      "DQJg8FpN3kXCr9eQWZxDdb2unnksqGgm1i" "DQJg8FpN3kXCr9eQWZxDjb2unnksqGgm1i" ∧
    AcceptsCorrupted .tron
      (uncompressedKey 0xff1b742a13117709d7832e840fcaedd7de81ac42f28083c5b5d9ab45344e0ade
        0x0dac34e8fb9449ca835d1ef6701c5398f9756a825d7e72e65fec6822a9a047ca)
      "TFdV4vTzgzq72EAg64P6nf8Kse6ztAb6rx" "TFdV4vTzgzq72EAg64P6nf8Kse3ztAb6rx" ∧
    AcceptsCorrupted .ripple
      (uncompressedKey 0x0cefea116bd431a41190f6037dfc918a1f561a3a3f6aeb9327daf276c2a5b2f5
        0x899904e184fd0d804146996b261006889a57891fa67d7efac8ad1b3d7a364dfe)
      "rw3HKzq9JTjPn2eHJcpeTwryJh8xqxZVv8" "rw3HKzq9JTgPn2eHJcpeTwryJh8xqxZVv8" ∧
    AcceptsCorrupted .polkadot ⟨.ed25519, List.replicate 32 0x20, by decide⟩
      "1j85PEVdv4s6gn2L6vV9fQKLG8dwXuMAZYnJu4KLkJHyEwr"
      "1j85PEVdv4s6gn2L6vV9fQKLG8dwXuMAyYnJu4KLkJHyEwr" := by
  refine ⟨⟨rfl, by decide +kernel, ?_, by decide +kernel⟩,
    ⟨rfl, by decide +kernel, ?_, by decide +kernel⟩,
    ⟨rfl, by decide +kernel, ?_, by decide +kernel⟩,
    ⟨rfl, by decide +kernel, ?_, by decide +kernel⟩⟩
  · show Replaced Base58.digits 0 _ _
    exact .of_eq "DQJg8FpN3kXCr9eQWZxD".toList "b2unnksqGgm1i".toList (c := 'd') (d := 'j')
      (by decide +kernel) (by decide +kernel) (Nat.zero_le _) (by decide) (by decide)
  · show Replaced Base58.digits 0 _ _
    exact .of_eq "TFdV4vTzgzq72EAg64P6nf8Kse".toList "ztAb6rx".toList (c := '6') (d := '3')
      (by decide +kernel) (by decide +kernel) (Nat.zero_le _) (by decide) (by decide)
  · show Replaced Ripple.alphabet 0 _ _
    exact .of_eq "rw3HKzq9JT".toList "Pn2eHJcpeTwryJh8xqxZVv8".toList (c := 'j') (d := 'g')
      (by decide +kernel) (by decide +kernel) (Nat.zero_le _) (by decide) (by decide)
  · show Replaced Base58.digits 0 _ _
    exact .of_eq "1j85PEVdv4s6gn2L6vV9fQKLG8dwXuMA".toList "YnJu4KLkJHyEwr".toList (c := 'Z')
      (d := 'y') (by decide +kernel) (by decide +kernel) (Nat.zero_le _) (by decide) (by decide)

end CoinAddress

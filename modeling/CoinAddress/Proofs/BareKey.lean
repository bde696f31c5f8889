import CoinAddress.Proofs.Base58Forms
import CoinAddress.Proofs.FamilyMark
import CoinAddress.Proofs.Resolution

/-!
# Solana addresses

A Solana address is the Base58 of a key and nothing else. So each key has one address, and what is
accepted is the address of one key: `Solana.validate_iff_existsUnique_key`.

No version and no checksum set it apart, so nearly every Base58 text of 43 or 44 characters is the
address of some key. Most chains refuse all of them, each by the look of its own addresses. The
Bech32 addresses of six chains are as long as a Solana address, and some of them have characters of
Base58 only; such a text is the address of a key and is accepted by the other chain as well.
`refusesSolana_iff` says which chains these are.
-/

namespace CoinAddress

namespace Solana

theorem encode_eq_ok_iff {key : Bytes} {s : Text} :
    encode key = .ok s ↔ key.length = 32 ∧ s = Base58.encode key := by
  rw [encode, bind_eq_ok_iff]
  simp only [Account.edKey_eq_ok_iff, Except.ok.injEq]
  constructor
  · rintro ⟨key', ⟨hlen, rfl⟩, htext⟩
    exact ⟨hlen, htext.symm⟩
  · rintro ⟨hlen, rfl⟩
    exact ⟨key, ⟨hlen, rfl⟩, rfl⟩

theorem validate_eq_ok_iff {s : Text} :
    validate s = .ok () ↔ ∃ key, encode key = .ok s := by
  simp only [encode_eq_ok_iff]
  exact Family.validate_solana_iff

theorem encode_injective {key key' : Bytes} {s : Text} (h : encode key = .ok s)
    (h' : encode key' = .ok s) : key = key' := by
  obtain ⟨-, htext⟩ := encode_eq_ok_iff.1 h
  obtain ⟨-, htext'⟩ := encode_eq_ok_iff.1 h'
  exact Base58.encode_injective (htext.symm.trans htext')

/-- **A text is accepted just when it is the address of a key, and of one key only.** What is
written for a key is its plain Base58, however many zero bytes it starts with. -/
theorem validate_iff_existsUnique_key :
    (∀ s, validate s = .ok () ↔ ∃ key : Bytes, key.length = 32 ∧ encode key = .ok s) ∧
    (∀ s, validate s = .ok () ↔ ∃! key : Bytes, key.length = 32 ∧ encode key = .ok s) ∧
    Set.InjOn encode {key : Bytes | key.length = 32} ∧
    ∀ key s, encode key = .ok s ↔ key.length = 32 ∧ Base58.Spelling key s := by
  have hexists :
      ∀ s, validate s = .ok () ↔ ∃ key : Bytes, key.length = 32 ∧ encode key = .ok s := by
    intro s
    rw [validate_eq_ok_iff]
    exact exists_congr fun key => ⟨fun h => ⟨(encode_eq_ok_iff.1 h).1, h⟩, And.right⟩
  refine ⟨hexists, ?_, ?_, ?_⟩
  · intro s
    rw [hexists]
    constructor
    · rintro ⟨key, hlen, hkey⟩
      exact ⟨key, ⟨hlen, hkey⟩, fun key' h' => encode_injective h'.2 hkey⟩
    · rintro ⟨key, hkey, -⟩
      exact ⟨key, hkey⟩
  · intro key hlen key' _ h
    have hkey : encode key = .ok (Base58.encode key) := encode_eq_ok_iff.2 ⟨hlen, rfl⟩
    exact encode_injective hkey (h.symm.trans hkey)
  · intro key s
    rw [encode_eq_ok_iff, Base58.spelling_iff]

end Solana

/-! ## How they look -/

namespace Mark

/-- What Solana addresses look like: the key starts with a zero byte, or its number takes 43 or 44
digits, of which the first of 44 is small. -/
def ofKeys : List Mark :=
  [⟨false, 0, some 44, ["1".toList]⟩,
   .ofLength 43 ["23456789ABCDEFGHJKLMNPQRSTUVWXYZabcdefghijkmnopqrstuvwxyz".toList],
   .ofLength 44 ["23456789ABCDEFGHJ".toList]]

/-- Between a power of the base and a multiple of it, the text of a number has one length and starts
with a digit below the multiple. -/
theorem fits_of_number {bs : Bytes} {k m : Nat} {start : Text} (hhead : bs.head? ≠ some 0)
    (hm : m ≤ 58) (hstart : ∀ d ∈ List.range m, 0 < d → Base58.digit d ∈ start)
    (hlo : 58 ^ k ≤ Base58.number bs) (hhi : Base58.number bs < 58 ^ k * m) :
    (ofLength (k + 1) [start]).Fits (Base58.encode bs) := by
  have hmax : Base58.number bs < 58 ^ (k + 1) := by
    rw [Nat.pow_succ]
    exact Nat.lt_of_lt_of_le hhi (Nat.mul_le_mul_left _ hm)
  obtain ⟨tail, htext, htail⟩ := Base58.encode_eq_cons_of_number hhead hlo hmax
  have hpos : 0 < Base58.number bs / 58 ^ k := Nat.div_pos hlo (Nat.pow_pos (by decide))
  have hlt : Base58.number bs / 58 ^ k < m := Nat.div_lt_of_lt_mul hhi
  refine fits_ofLength (colon_not_mem_base58 bs) (by rw [htext, List.length_cons, htail]) ?_
  rw [htext]
  exact ⟨hstart _ (List.mem_range.2 hlt) hpos, trivial⟩

/-- The number of a key that does not start with a zero byte. -/
theorem number_bounds {b : UInt8} {bs : Bytes} (hb : b ≠ 0) (hlen : bs.length = 31) :
    256 ^ 31 ≤ Base58.number (b :: bs) ∧ Base58.number (b :: bs) < 256 ^ 32 := by
  obtain ⟨hlow, hhigh⟩ := Base58.number_append_bounds [b] bs
  have hnumber : Base58.number [b] = b.toNat := by simp [Base58.number, Radix.value]
  have hpos : 1 ≤ b.toNat := by
    rw [Nat.one_le_iff_ne_zero]
    exact fun h => hb (UInt8.toNat_inj.1 h)
  have hlt : b.toNat < 256 := UInt8.toNat_lt_size b
  rw [hnumber, hlen, List.singleton_append] at hlow hhigh
  constructor
  · exact Nat.le_trans (Nat.le_mul_of_pos_left _ hpos) hlow
  · rw [show 256 ^ 32 = 256 * 256 ^ 31 from Nat.pow_succ']
    exact Nat.lt_of_lt_of_le hhigh (Nat.mul_le_mul_right _ hlt)

/-- **The address of a key has one of these looks.** -/
theorem exists_fits_key {key : Bytes} (h : key.length = 32) :
    ∃ m ∈ ofKeys, m.Fits (Base58.encode key) := by
  have hcolon := colon_not_mem_base58 key
  cases key with
  | nil => cases h
  | cons b bs =>
    have hlen : bs.length = 31 := Nat.succ.inj h
    by_cases hb : b = 0
    · subst hb
      have hbound := Base58.length_encode_lt (0 :: bs)
      rw [h] at hbound
      refine ⟨_, List.mem_cons_self, ⟨by simp [hcolon], Nat.zero_le _, ?_, ?_⟩⟩
      · rintro n hn
        cases hn
        omega
      · rw [Base58.encode_zero_cons]
        exact ⟨List.mem_singleton.2 rfl, trivial⟩
    · obtain ⟨hlow, hhigh⟩ := number_bounds hb hlen
      have hhead : (b :: bs).head? ≠ some 0 := fun h => hb (Option.some.inj h)
      by_cases hshort : Base58.number (b :: bs) < 58 ^ 43
      · refine ⟨_, List.mem_cons_of_mem _ List.mem_cons_self,
          fits_of_number (k := 42) (m := 58) hhead (by decide) (by decide +kernel) ?_ hshort⟩
        exact Nat.le_trans (by decide) hlow
      · refine ⟨_, List.mem_cons_of_mem _ (List.mem_cons_of_mem _ List.mem_cons_self),
          fits_of_number (k := 43) (m := 18) hhead (by decide) (by decide +kernel)
            (Nat.le_of_not_lt hshort) ?_⟩
        exact Nat.lt_of_lt_of_le hhigh (by decide)

end Mark

/-! ## Chains that refuse every Solana address -/

namespace Family

/-- Whether the look of a family's addresses excludes that of every Solana address. -/
def separateFromKeys (family : Family) : Bool :=
  Mark.ofKeys.all fun a => family.marks.all a.excludes

/-- The bytes of a Substrate address are more than those of a key. -/
theorem not_validate_ss58_key {network : UInt16} {key : Bytes} (h : key.length = 32) :
    (ss58 network).validate (Base58.encode key) ≠ .ok () := by
  intro hvalid
  obtain ⟨account, hlen, front, -, htext⟩ := validate_ss58_iff.1 hvalid
  have hbytes := congrArg List.length (Base58.encode_injective htext)
  rw [List.length_append, List.length_append, Ss58.length_checksum, h, hlen] at hbytes
  omega

end Family

/-- The chains whose addresses may be Solana addresses as well. -/
def solanaLookalikes : List Chain :=
  [.thorchain, .litecoin, .mayaChain, .dydx, .osmosis, .akash]

theorem separateFromKeys_of_not_mem {chain : Chain} (h : chain ∉ solanaLookalikes)
    (hsolana : chain ≠ .solana) (hpolkadot : chain ≠ .polkadot) :
    chain.family.separateFromKeys := by
  have hall : Chain.all.all fun c => decide (c ∈ solanaLookalikes) || decide (c = .solana) ||
      decide (c = .polkadot) || c.family.separateFromKeys := by decide +kernel
  have hchain := List.all_eq_true.1 hall chain chain.mem_all
  simpa [h, hsolana, hpolkadot] using hchain

/-- **All chains but the lookalikes refuse the address of every key.** -/
theorem not_validate_key {chain : Chain} (hsolana : chain ≠ .solana)
    (h : chain ∉ solanaLookalikes) {key : Bytes} (hlen : key.length = 32) :
    validate chain (Base58.encode key) ≠ .ok () := by
  rw [ne_eq, validate_eq_ok_iff]
  by_cases hpolkadot : chain = .polkadot
  · subst hpolkadot
    exact Family.not_validate_ss58_key hlen
  · intro hvalid
    obtain ⟨a, ha, hfit⟩ := Mark.exists_fits_key hlen
    obtain ⟨b, hb, hfit'⟩ := exists_mark_of_validate hsolana hvalid
    have hsep := List.all_eq_true.1 (separateFromKeys_of_not_mem h hsolana hpolkadot) a ha
    exact Mark.not_fits_of_excludes (List.all_eq_true.1 hsep b hb) hfit hfit'

theorem PublicKey.length_of_ed25519 {key : PublicKey} (h : key.curve = .ed25519) :
    key.bytes.length = 32 := by
  have hmem := key.length_mem
  rw [h] at hmem
  exact List.mem_singleton.1 hmem

theorem resolve_solana {key : PublicKey} (h : key.curve = .ed25519) :
    resolve .solana key = .ok ⟨.solana, Base58.encode key.bytes⟩ := by
  refine resolveBytes_eq_ok_iff.2 ⟨h, key.length_mem, rfl, ?_⟩
  exact bind_eq_ok_iff.2 ⟨_, Account.edKey_eq_ok_iff.2 ⟨PublicKey.length_of_ed25519 h, rfl⟩, rfl⟩

/-! ## Chains that accept some -/

/-- A key whose Solana address is an address of another chain. -/
structure Mistaken (chain : Chain) (key : PublicKey) (address : String) : Prop where
  resolved : resolve .solana key = .ok ⟨.solana, address.toList⟩
  accepted : validate chain address.toList = .ok ()

/-- The key of ed25519 with this number. -/
def keyOfNumber (n : Nat) : PublicKey where
  curve := .ed25519
  bytes := Bytes.beBytes 32 n
  length_mem := by simp [Curve.keyLengths]

theorem exists_mistaken {chain : Chain} (h : chain ∈ solanaLookalikes) :
    ∃ n address, Mistaken chain (keyOfNumber n) address := by
  simp only [solanaLookalikes, List.mem_cons, List.not_mem_nil, or_false] at h
  rcases h with rfl | rfl | rfl | rfl | rfl | rfl
  · exact ⟨0x0d3ec33cbf0003e6131bcba399161e82a03315f53cf794a00d929d5c91b84674,
      "thor1fzshqmk2tmnpfrm53j535rmakm4u7kv5n6zn6f", by decide +kernel, by decide +kernel⟩
  · exact ⟨0x04fba5f35134e3a0eea2db94cc900e575a1f31b3a8d28ecc9a7bcc0daae4a6f9,
      "LTC1Q8XAC3AQD823T9L5AAFNMUF78GAJAKR4MTTP86C", by decide +kernel, by decide +kernel⟩
  · exact ⟨0x0b6bf8bc672fd6edfec6d3d861fe2b9c48d0666f856d1f891634db123d9b2146,
      "maya18zureth6rmexjs836paafmy5ccyqnv8csv6unm", by decide +kernel, by decide +kernel⟩
  · exact ⟨0x0978f2e6e591cb6c0bdde505edcf648b31dfa87fc95b6281eb34fd8826913c9c,
      "dydx1nn7nca2muf45u9j9jx8z5e9zdc7c28k7ekfs95", by decide +kernel, by decide +kernel⟩
  · exact ⟨0x0c022029e3d5dd734b390b6c6f76fbe40c40741cc52928cc26eef65f7086d183,
      "osmo1qvpsxqcrqvpsxqcrqvpsxqcrqvpsxqcr2u426e", by decide +kernel, by decide +kernel⟩
  · exact ⟨0x8a604e54ea9719b370b93210261f730402e3d919369f114fc9d239a57f6b2d42,
      "AKASH1285W52QTGNSKJDX56CGEQ8EA8T7YZ7YCLV3VKF", by decide +kernel, by decide +kernel⟩

/-! ## Which chains are which -/

/-- Whether a chain refuses the Solana address of every key. -/
def RefusesSolana (chain : Chain) : Prop :=
  ∀ key : PublicKey, key.curve = .ed25519 →
    ∃ a e, resolve .solana key = .ok a ∧ validate chain a.text = .error e

/-- **Every Solana address is refused by the other chains, save for six of them,** each of which
accepts the address of some key. -/
theorem refusesSolana_iff {chain : Chain} (h : chain ≠ .solana) :
    RefusesSolana chain ↔ chain ∉ solanaLookalikes := by
  constructor
  · intro hrefuses hmem
    obtain ⟨n, address, hresolved, haccepted⟩ := exists_mistaken hmem
    obtain ⟨a, e, ha, he⟩ := hrefuses (keyOfNumber n) rfl
    rw [hresolved] at ha
    cases ha
    rw [haccepted] at he
    cases he
  · intro hmem key hcurve
    have hrefused := not_validate_key h hmem (PublicKey.length_of_ed25519 hcurve)
    cases hvalid : validate chain (Base58.encode key.bytes) with
    | ok u => exact absurd hvalid hrefused
    | error e => exact ⟨_, e, resolve_solana hcurve, hvalid⟩

theorem refusesSolana_iff_noble : Chain.noble ≠ .solana ∧ RefusesSolana .noble :=
  ⟨by decide, (refusesSolana_iff (by decide)).2 (by decide)⟩

/-- **A Solana address that Osmosis accepts.** -/
theorem osmosis_accepts_solana_address :
    Chain.osmosis ≠ .solana ∧
      Mistaken .osmosis
        (keyOfNumber 0x0c0220299a0e9a0c955007fac40185e6e7611d04b661533b8d195d660817dc4b)
        "osmo15v85aappwmfg7r3zjdfnch6n96wfc45kqwqdxe" := by
  refine ⟨?_, ?_, ?_⟩
  · decide
  · decide +kernel
  · decide +kernel

end CoinAddress

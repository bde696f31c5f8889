import CoinAddress.Proofs.FamilyText

/-!
# What resolving gives

The outcome of `resolveBytes` on every chain for any bytes said to be a key on any curve. The three
ways to fail come in a fixed order, curve before length before point; past them an address is
written. So what a family does with the hash of a point does not fail for any chain:
`exists_text_of_point` and `exists_text_of_edKey`.
-/

namespace CoinAddress

namespace Family

/-- Whether an address can be written under the family's parameter. -/
def writable : Family → Bool
  | segWit hrp | cosmos hrp => (Bech32.hrpCase hrp).isOk
  | ss58 network => decide (network ≤ Ss58.maxNetwork)
  | base58Check _ | cashAddr _ | evm | tron | ripple | solana | sui | ton => true

theorem exists_print {hrp : Text} (h : (Bech32.hrpCase hrp).isOk) (words : Bytes) :
    ∃ s, Bech32.print hrp words = .ok s := by
  rw [Bech32.print]
  cases hk : Bech32.hrpCase hrp with
  | error e => simp [hk, Except.isOk, Except.toBool] at h
  | ok k => exact ⟨_, rfl⟩

theorem exists_encode {hrp : Text} (h : (Bech32.hrpCase hrp).isOk) (payload : Bytes) :
    ∃ s, Bech32.encode hrp payload = .ok s := by
  obtain ⟨s, hs⟩ := exists_print h (Regroup.ofBytes 5 payload)
  exact ⟨s, by rw [Bech32.encode, hs]; rfl⟩

theorem exists_encodeWitness {hrp : Text} (h : (Bech32.hrpCase hrp).isOk) (program : Bytes) :
    ∃ s, Bech32.encodeWitness hrp program = .ok s := by
  obtain ⟨s, hs⟩ := exists_print h (0 :: Regroup.ofBytes 5 program)
  exact ⟨s, by rw [Bech32.encodeWitness, hs]; rfl⟩

/-- Bytes that are no point fail alike in every family of secp256k1. -/
theorem encodeKey_of_no_point {family : Family} (hcurve : family.curve = .secp256k1) {key : Bytes}
    (hkey : Secp256k1.Point.ofBytes? key = none) :
    family.encodeKey key = .error .invalidPublicKey := by
  have hpoint : Account.pointOf key = .error .invalidPublicKey := by rw [Account.pointOf, hkey]
  cases family with
  | base58Check version | ripple =>
    simp [encodeKey, Account.givenHash, hpoint, bind, Except.bind, Except.map]
  | segWit hrp | cosmos hrp | cashAddr label =>
    simp [encodeKey, Account.compressedHash, hpoint, bind, Except.bind]
  | evm | tron => simp [encodeKey, Account.evm, hpoint, bind, Except.bind, Except.map]
  | ss58 network | solana | sui | ton => cases hcurve

/-- **A point has an address in every family of secp256k1:** nothing that comes after it is read
can fail. -/
theorem exists_text_of_point {family : Family} (hcurve : family.curve = .secp256k1)
    (hwrite : family.writable) {key : Bytes} {p : Secp256k1.Point}
    (hkey : Secp256k1.Point.ofBytes? key = some p) : ∃ s, family.encodeKey key = .ok s := by
  have hgiven := Account.givenHash_of_point hkey
  have hcompressed := Account.compressedHash_of_point hkey
  have hevm := Account.evm_of_point hkey
  cases family with
  | base58Check version => exact ⟨_, map_eq_ok_iff.2 ⟨_, hgiven, rfl⟩⟩
  | segWit hrp =>
    obtain ⟨s, hs⟩ := exists_encodeWitness hwrite (Ripemd160.keyHash p.compressed)
    exact ⟨s, bind_eq_ok_iff.2 ⟨_, hcompressed, hs⟩⟩
  | cashAddr label =>
    have hs : CashAddr.encode label CashAddr.payToKey (Ripemd160.keyHash p.compressed) = .ok _ :=
      CashAddr.encode_eq_ok_iff.2 ⟨Ripemd160.length_keyHash p.compressed, rfl⟩
    exact ⟨_, bind_eq_ok_iff.2 ⟨_, hcompressed, hs⟩⟩
  | evm => exact ⟨_, map_eq_ok_iff.2 ⟨_, hevm, rfl⟩⟩
  | tron => exact ⟨_, map_eq_ok_iff.2 ⟨_, hevm, rfl⟩⟩
  | cosmos hrp =>
    obtain ⟨s, hs⟩ := exists_encode hwrite (Ripemd160.keyHash p.compressed)
    exact ⟨s, bind_eq_ok_iff.2 ⟨_, hcompressed, hs⟩⟩
  | ripple => exact ⟨_, bind_eq_ok_iff.2 ⟨_, hgiven, Ripple.encode_eq_ok _⟩⟩
  | ss58 network | solana | sui | ton => cases hcurve

/-- **Any 32 bytes have an address in every family of ed25519.** -/
theorem exists_text_of_edKey {family : Family} (hcurve : family.curve = .ed25519)
    (hwrite : family.writable) {key : Bytes} (hkey : key.length = 32) :
    ∃ s, family.encodeKey key = .ok s := by
  have hed : Account.edKey key = .ok key := Account.edKey_eq_ok_iff.2 ⟨hkey, rfl⟩
  cases family with
  | base58Check version | segWit hrp | cashAddr label | evm | tron | cosmos hrp | ripple =>
    cases hcurve
  | ss58 network =>
    have hs := Ss58.encode_eq_ok_iff.2 ⟨hkey, of_decide_eq_true hwrite, rfl⟩
    exact ⟨_, bind_eq_ok_iff.2 ⟨key, hed, hs⟩⟩
  | solana => exact ⟨_, bind_eq_ok_iff.2 ⟨key, hed, rfl⟩⟩
  | sui => exact ⟨_, bind_eq_ok_iff.2 ⟨_, bind_eq_ok_iff.2 ⟨key, hed, rfl⟩, rfl⟩⟩
  | ton => exact ⟨_, map_eq_ok_iff.2 ⟨key, hed, rfl⟩⟩

end Family

theorem Chain.writable_family (chain : Chain) : chain.family.writable := by
  cases chain <;> decide

theorem Chain.curve_family (chain : Chain) : chain.family.curve = chain.curve := rfl

/-! ## The checks in their order -/

section

variable {chain : Chain} {curve : Curve} {bytes : Bytes}

theorem resolveBytes_of_curve_ne (h : curve ≠ chain.curve) : resolveBytes chain curve bytes =
    .error ⟨chain.name, .validate, .curveMismatch chain chain.curve curve⟩ := by
  rw [resolveBytes, if_pos h]

theorem resolveBytes_of_length (hcurve : curve = chain.curve)
    (hlen : bytes.length ∉ curve.keyLengths) : resolveBytes chain curve bytes =
      .error ⟨chain.name, .validate, .invalidKeyLength curve bytes.length⟩ := by
  rw [resolveBytes, if_neg (not_not.2 hcurve), Curve.checkLength, if_neg hlen]

/-- Past both checks, the outcome is what the family makes of the key. -/
theorem resolveBytes_of_checked (hcurve : curve = chain.curve)
    (hlen : bytes.length ∈ curve.keyLengths) : resolveBytes chain curve bytes =
      ((chain.family.encodeKey bytes).mapError fun e =>
        ⟨chain.name, .ofEncodeError e, e⟩).map fun text => ⟨chain, text⟩ := by
  have hcheck : curve.checkLength bytes.length = .ok () := by rw [Curve.checkLength, if_pos hlen]
  have hencode : chain.family.encode bytes = chain.family.encodeKey bytes := by
    rw [Family.encode, Chain.curve_family, ← hcurve, hcheck]
    rfl
  rw [resolveBytes, if_neg (not_not.2 hcurve), hcheck]
  simp only [hencode]
  cases chain.family.encodeKey bytes <;> rfl

theorem resolveBytes_of_no_point (hcurve : curve = chain.curve)
    (hlen : bytes.length ∈ curve.keyLengths) (hsecp : curve = .secp256k1)
    (hpoint : Secp256k1.Point.ofBytes? bytes = none) : resolveBytes chain curve bytes =
      .error ⟨chain.name, .normalize, .invalidPublicKey⟩ := by
  rw [resolveBytes_of_checked hcurve hlen,
    Family.encodeKey_of_no_point (hcurve.symm.trans hsecp) hpoint]
  rfl

theorem exists_resolveBytes_eq_ok (hcurve : curve = chain.curve)
    (hlen : bytes.length ∈ curve.keyLengths)
    (hpoint : curve = .secp256k1 → Secp256k1.Point.ofBytes? bytes ≠ none) :
    ∃ text, resolveBytes chain curve bytes = .ok ⟨chain, text⟩ := by
  have hwritten : ∃ text, chain.family.encodeKey bytes = .ok text := by
    cases hc : curve with
    | secp256k1 =>
      obtain ⟨p, hp⟩ := Option.ne_none_iff_exists'.1 (hpoint hc)
      exact Family.exists_text_of_point (hcurve.symm.trans hc) chain.writable_family hp
    | ed25519 =>
      rw [hc] at hlen
      exact Family.exists_text_of_edKey (hcurve.symm.trans hc) chain.writable_family
        (List.mem_singleton.1 hlen)
  obtain ⟨text, htext⟩ := hwritten
  exact ⟨text, by rw [resolveBytes_of_checked hcurve hlen, htext]; rfl⟩

theorem resolveBytes_eq_ok_iff {a : Address} : resolveBytes chain curve bytes = .ok a ↔
    curve = chain.curve ∧ bytes.length ∈ curve.keyLengths ∧ a.chain = chain ∧
      chain.family.encodeKey bytes = .ok a.text := by
  constructor
  · intro h
    by_cases hcurve : curve = chain.curve
    · by_cases hlen : bytes.length ∈ curve.keyLengths
      · rw [resolveBytes_of_checked hcurve hlen] at h
        cases htext : chain.family.encodeKey bytes with
        | error e => simp [htext, Except.mapError, Except.map] at h
        | ok text =>
          rw [htext] at h
          cases h
          exact ⟨hcurve, hlen, rfl, rfl⟩
      · rw [resolveBytes_of_length hcurve hlen] at h
        cases h
    · rw [resolveBytes_of_curve_ne hcurve] at h
      cases h
  · rintro ⟨hcurve, hlen, rfl, htext⟩
    rw [resolveBytes_of_checked hcurve hlen, htext]
    rfl

/-- The outcome as one expression; only the text is left open. -/
theorem exists_resolveBytes_eq (chain : Chain) (curve : Curve) (bytes : Bytes) :
    ∃ text, resolveBytes chain curve bytes =
      if curve ≠ chain.curve then
        .error ⟨chain.name, .validate, .curveMismatch chain chain.curve curve⟩
      else if bytes.length ∉ curve.keyLengths then
        .error ⟨chain.name, .validate, .invalidKeyLength curve bytes.length⟩
      else if curve = .secp256k1 ∧ Secp256k1.Point.ofBytes? bytes = none then
        .error ⟨chain.name, .normalize, .invalidPublicKey⟩
      else .ok ⟨chain, text⟩ := by
  by_cases hcurve : curve ≠ chain.curve
  · refine ⟨[], ?_⟩
    rw [if_pos hcurve, resolveBytes_of_curve_ne hcurve]
  · have hsame := not_not.1 hcurve
    by_cases hlen : bytes.length ∉ curve.keyLengths
    · refine ⟨[], ?_⟩
      rw [if_neg hcurve, if_pos hlen, resolveBytes_of_length hsame hlen]
    · have hallowed := not_not.1 hlen
      by_cases hpoint : curve = .secp256k1 ∧ Secp256k1.Point.ofBytes? bytes = none
      · refine ⟨[], ?_⟩
        rw [if_neg hcurve, if_neg hlen, if_pos hpoint,
          resolveBytes_of_no_point hsame hallowed hpoint.1 hpoint.2]
      · obtain ⟨text, htext⟩ := exists_resolveBytes_eq_ok hsame hallowed
          fun hsecp hnone => hpoint ⟨hsecp, hnone⟩
        refine ⟨text, ?_⟩
        rw [if_neg hcurve, if_neg hlen, if_neg hpoint, htext]

/-- The three failures, with what each of them says about the key. -/
theorem error_of_resolveBytes {e : ResolveError} (h : resolveBytes chain curve bytes = .error e) :
    e = ⟨chain.name, .validate, .curveMismatch chain chain.curve curve⟩ ∨
      e = ⟨chain.name, .validate, .invalidKeyLength curve bytes.length⟩ ∧
        bytes.length ∉ curve.keyLengths ∨
      e = ⟨chain.name, .normalize, .invalidPublicKey⟩ := by
  obtain ⟨text, htext⟩ := exists_resolveBytes_eq chain curve bytes
  rw [h] at htext
  split at htext
  · exact .inl (Except.error.inj htext)
  · split at htext
    · next hlen => exact .inr (.inl ⟨Except.error.inj htext, hlen⟩)
    · split at htext
      · exact .inr (.inr (Except.error.inj htext))
      · cases htext

end

/-- A key of the chain's curve can fail only by being no point. -/
theorem resolve_eq_error_iff {chain : Chain} {key : PublicKey} (hcurve : key.curve = chain.curve)
    {e : ResolveError} : resolve chain key = .error e ↔ key.curve = .secp256k1 ∧
      Secp256k1.Point.ofBytes? key.bytes = none ∧
        e = ⟨chain.name, .normalize, .invalidPublicKey⟩ := by
  rw [resolve]
  constructor
  · intro he
    by_cases hpoint : key.curve = .secp256k1 ∧ Secp256k1.Point.ofBytes? key.bytes = none
    · rw [resolveBytes_of_no_point hcurve key.length_mem hpoint.1 hpoint.2] at he
      exact ⟨hpoint.1, hpoint.2, (Except.error.inj he).symm⟩
    · obtain ⟨text, htext⟩ := exists_resolveBytes_eq_ok hcurve key.length_mem
        fun hsecp hnone => hpoint ⟨hsecp, hnone⟩
      rw [htext] at he
      cases he
  · rintro ⟨hsecp, hnone, rfl⟩
    exact resolveBytes_of_no_point hcurve key.length_mem hsecp hnone

/-- **What resolving gives, in every case.** The curve is looked at first, then the length, then
whether the bytes are a point; past that an address is written. So writing never is the stage that
fails, and a key, whose length is right by construction, never fails for its length. -/
theorem resolveBytes_outcome (chain : Chain) (curve : Curve) (bytes : Bytes) :
    (∃ text, resolveBytes chain curve bytes =
      if curve ≠ chain.curve then
        .error ⟨chain.name, .validate, .curveMismatch chain chain.curve curve⟩
      else if bytes.length ∉ curve.keyLengths then
        .error ⟨chain.name, .validate, .invalidKeyLength curve bytes.length⟩
      else if curve = .secp256k1 ∧ Secp256k1.Point.ofBytes? bytes = none then
        .error ⟨chain.name, .normalize, .invalidPublicKey⟩
      else .ok ⟨chain, text⟩) ∧
    (∀ e, resolveBytes chain curve bytes = .error e → e.stage ≠ .encode) ∧
    ∀ (key : PublicKey) (e : ResolveError), resolve chain key = .error e →
      ∀ c n, e.cause ≠ .invalidKeyLength c n := by
  refine ⟨exists_resolveBytes_eq chain curve bytes, fun e he => ?_, fun key e he c n => ?_⟩
  · rcases error_of_resolveBytes he with rfl | ⟨rfl, -⟩ | rfl <;> simp
  · rcases error_of_resolveBytes he with rfl | ⟨-, hlen⟩ | rfl
    · simp
    · exact absurd key.length_mem hlen
    · simp

end CoinAddress

import CoinAddress.Ton.Wallet
import CoinAddress.Proofs.BitStream
import CoinAddress.Proofs.LetterCase
import CoinAddress.Proofs.Outcome
import Mathlib.Data.List.GetD
import Mathlib.Data.List.Nodup

/-!
# Which texts are addresses of TON

Base64 is read strictly, so each byte string has one text in an alphabet: `Base64.decode_eq_ok_iff`.
A text without a colon is an address just when it is written for an account on one of the two
workchains, in the alphabet it is read in: `Ton.parse_eq_ok_iff`.
-/

namespace CoinAddress

namespace Base64

/-- The character of a value. -/
def digit (alphabet : Alphabet) (v : UInt8) : Char := alphabet.digits.getD v.toNat 'A'

theorem encode_eq_map (alphabet : Alphabet) (bs : Bytes) :
    encode alphabet bs = (Regroup.ofBytes 6 bs).map (digit alphabet) := rfl

theorem length_commonDigits : commonDigits.length = 62 := by decide

theorem length_digits (alphabet : Alphabet) : alphabet.digits.length = 64 := by
  cases alphabet <;> exact List.length_append.trans (by rw [length_commonDigits]; rfl)

theorem not_mem_commonDigits : '-' ∉ commonDigits ∧ '_' ∉ commonDigits := by decide

theorem nodup_digits (alphabet : Alphabet) : alphabet.digits.Nodup := by
  cases alphabet <;> decide

/-- A digit stands in its alphabet at its value. -/
theorem idxOf?_digit (alphabet : Alphabet) {v : UInt8} (h : v.toNat < 64) :
    alphabet.digits.idxOf? (digit alphabet v) = some v.toNat := by
  have hlt : v.toNat < alphabet.digits.length := length_digits alphabet ▸ h
  have hdigit : digit alphabet v = alphabet.digits[v.toNat] := List.getD_eq_getElem _ _ hlt
  rw [List.idxOf?_eq_some_iff]
  refine ⟨hlt, hdigit.symm, fun j hj heq => ?_⟩
  rw [hdigit, (nodup_digits alphabet).getElem_inj_iff] at heq
  omega

theorem digit_of_idxOf? {alphabet : Alphabet} {c : Char} {v : Nat}
    (h : alphabet.digits.idxOf? c = some v) : v < 64 ∧ digit alphabet (UInt8.ofNat v) = c := by
  obtain ⟨hlt, hget, -⟩ := List.idxOf?_eq_some_iff.1 h
  have hv : v < 64 := length_digits alphabet ▸ hlt
  have hbyte : v < UInt8.size := Nat.lt_trans hv (by decide)
  refine ⟨hv, ?_⟩
  rw [digit, UInt8.toNat_ofNat_of_lt' hbyte, List.getD_eq_getElem?_getD,
    List.getElem?_eq_getElem hlt, Option.getD_some, hget]

/-- The values are read from their digits only. -/
theorem valuesFrom_eq_ok_iff {alphabet : Alphabet} {offset : Nat} {s : Text} {vs : Bytes} :
    valuesFrom alphabet offset s = .ok vs ↔
      (∀ v ∈ vs, v.toNat < 64) ∧ s = vs.map (digit alphabet) := by
  induction s generalizing offset vs with
  | nil =>
    cases vs with
    | nil => simp [valuesFrom]
    | cons v vs => simp [valuesFrom]
  | cons c s ih =>
    rw [valuesFrom]
    constructor
    · intro h
      split at h
      · next i hi =>
        obtain ⟨us, hs, rfl⟩ := map_eq_ok_iff.1 h
        obtain ⟨hlt, hdigit⟩ := digit_of_idxOf? hi
        obtain ⟨hus, htext⟩ := ih.1 hs
        have hv : (UInt8.ofNat i).toNat < 64 := by
          rwa [UInt8.toNat_ofNat_of_lt' (Nat.lt_trans hlt (by decide) : i < UInt8.size)]
        exact ⟨List.forall_mem_cons.2 ⟨hv, hus⟩, by rw [List.map_cons, hdigit, htext]⟩
      · split at h <;> cases h
    · rintro ⟨hlt, htext⟩
      cases vs with
      | nil => cases htext
      | cons v vs =>
        obtain ⟨hv, hvs⟩ := List.forall_mem_cons.1 hlt
        rw [List.map_cons, List.cons.injEq] at htext
        rw [htext.1, idxOf?_digit alphabet hv]
        simp only
        rw [ih.2 ⟨hvs, htext.2⟩, UInt8.ofNat_toNat]
        rfl

/-- **Each byte string has one text in an alphabet,** and every other text is refused or spells
another one. -/
theorem decode_eq_ok_iff {alphabet : Alphabet} {s : Text} {bs : Bytes} :
    decode alphabet s = .ok bs ↔ s = encode alphabet bs := by
  rw [encode_eq_map, decode]
  constructor
  · intro h
    split at h
    · cases h
    · next vs hvs =>
      split at h
      · next us hus =>
        cases h
        rw [(valuesFrom_eq_ok_iff.1 hvs).2,
          (Regroup.regroup_eq_ok_iff_ofBytes (by decide) (by decide)).1 hus]
      · cases h
  · rintro rfl
    rw [valuesFrom_eq_ok_iff.2 ⟨fun v => Regroup.lt_of_mem_ofBytes (by decide) (by decide), rfl⟩]
    simp only [(Regroup.regroup_eq_ok_iff_ofBytes (show 0 < 6 by decide) (by decide)).2 rfl]

theorem length_encode (alphabet : Alphabet) (bs : Bytes) :
    (encode alphabet bs).length = (8 * bs.length + 5) / 6 := by
  rw [encode_eq_map, List.length_map, Regroup.length_ofBytes (by decide) (by decide)]
  rfl

theorem mem_digits_of_mem_encode {alphabet : Alphabet} {bs : Bytes} {c : Char}
    (h : c ∈ encode alphabet bs) : c ∈ alphabet.digits := by
  obtain ⟨v, hv, rfl⟩ := List.mem_map.1 h
  have hlt : v.toNat < alphabet.digits.length := by
    rw [length_digits]
    exact Regroup.lt_of_mem_ofBytes (show 0 < 6 by decide) (by decide) hv
  rw [List.getD_eq_getElem?_getD, List.getElem?_eq_getElem hlt, Option.getD_some]
  exact List.getElem_mem hlt

/-- The two alphabets differ in two characters only. -/
theorem digit_cases {v : UInt8} (hv : v.toNat < 64) :
    (digit .urlSafe v ∈ commonDigits ∧ digit .standard v = digit .urlSafe v) ∨
      (digit .urlSafe v = '-' ∧ digit .standard v = '+') ∨
        (digit .urlSafe v = '_' ∧ digit .standard v = '/') := by
  by_cases hlt : v.toNat < commonDigits.length
  · have hurl : digit .urlSafe v = commonDigits.getD v.toNat 'A' := List.getD_append _ _ _ _ hlt
    have hstandard : digit .standard v = commonDigits.getD v.toNat 'A' :=
      List.getD_append _ _ _ _ hlt
    rw [hurl, hstandard, List.getD_eq_getElem _ _ hlt]
    exact .inl ⟨List.getElem_mem hlt, rfl⟩
  · have hurl : digit .urlSafe v = ['-', '_'].getD (v.toNat - commonDigits.length) 'A' :=
      List.getD_append_right _ _ _ _ (by omega)
    have hstandard : digit .standard v = ['+', '/'].getD (v.toNat - commonDigits.length) 'A' :=
      List.getD_append_right _ _ _ _ (by omega)
    rw [length_commonDigits] at hlt hurl hstandard
    rcases (show v.toNat = 62 ∨ v.toNat = 63 by omega) with h | h
    · rw [h] at hurl hstandard
      exact .inr (.inl ⟨hurl, hstandard⟩)
    · rw [h] at hurl hstandard
      exact .inr (.inr ⟨hurl, hstandard⟩)

/-- The alphabets differ in the last two digits only. -/
theorem digit_standard_eq {v : UInt8} (hv : v.toNat < 64) (hminus : digit .urlSafe v ≠ '-')
    (hunder : digit .urlSafe v ≠ '_') : digit .standard v = digit .urlSafe v := by
  rcases digit_cases hv with ⟨-, h⟩ | ⟨h, -⟩ | ⟨h, -⟩
  · exact h
  · exact absurd h hminus
  · exact absurd h hunder

/-- A text without those two characters is the same in both alphabets. -/
theorem map_digit_standard_eq {vs : Bytes} (hlt : ∀ v ∈ vs, v.toNat < 64)
    (hminus : '-' ∉ vs.map (digit .urlSafe)) (hunder : '_' ∉ vs.map (digit .urlSafe)) :
    vs.map (digit .standard) = vs.map (digit .urlSafe) := by
  refine List.map_congr_left fun v hv => digit_standard_eq (hlt v hv) ?_ ?_
  · exact fun h => hminus (h ▸ List.mem_map.2 ⟨v, hv, rfl⟩)
  · exact fun h => hunder (h ▸ List.mem_map.2 ⟨v, hv, rfl⟩)

end Base64

namespace Ton

/-! ## The 36 bytes -/

@[simp] theorem length_crc (message : Bytes) : (Crc16.bytes message).length = 2 := rfl

@[simp] theorem Address.length_body (a : Address) : a.body.length = 34 := by
  rw [body, List.length_cons, List.length_cons, a.hash_length]

/-- The flags that are accepted are those that an address can have. -/
theorem bounceableOf_eq_ok_iff {flags : UInt8} {bounceable : Bool} :
    bounceableOf flags = .ok bounceable ↔
      flags = (if bounceable then bounceableFlags else nonBounceableFlags) |||
        (if flags &&& testnetFlag ≠ 0 then testnetFlag else 0) := by
  have hall : ∀ n ∈ List.range 256, ∀ b : Bool, (bounceableOf (UInt8.ofNat n)).toOption = some b ↔
      UInt8.ofNat n = (if b then bounceableFlags else nonBounceableFlags) |||
        (if UInt8.ofNat n &&& testnetFlag ≠ 0 then testnetFlag else 0) := by decide +kernel
  have h := hall flags.toNat (List.mem_range.2 (UInt8.toNat_lt_size flags)) bounceable
  rw [UInt8.ofNat_toNat] at h
  rw [← h]
  cases bounceableOf flags <;> simp [Except.toOption]

/-- An address is on one of two workchains. -/
theorem checkWorkchain_eq_ok_iff {w : Int32} :
    checkWorkchain w = .ok () ↔ w = baseChain ∨ w = masterChain := by
  rw [checkWorkchain]
  split <;> simp_all

/-- The low byte of a workchain in use stands for it. -/
theorem toInt32_toInt8 {w : Int32} (h : w = baseChain ∨ w = masterChain) :
    w.toInt8.toUInt8.toInt8.toInt32 = w := by
  rcases h with rfl | rfl <;> decide

theorem toUInt8_of_toInt32 {b : UInt8} {w : Int32} (h : b.toInt8.toInt32 = w) :
    w.toInt8.toUInt8 = b := by
  rw [← h, Int8.toInt8_toInt32]
  rfl

/-- **Bytes are read as an address just when they are its flags, workchain and hash with their
checksum.** -/
theorem ofBytes_eq_ok_iff {bytes : Bytes} {a : Address} :
    ofBytes bytes = .ok a ↔ (a.workchain = baseChain ∨ a.workchain = masterChain) ∧
      bytes = a.body ++ Crc16.bytes a.body := by
  constructor
  · intro h
    unfold ofBytes at h
    split at h
    · next flags workchain rest =>
      split at h
      · next hlen =>
        obtain ⟨hsum, h⟩ := refuse_eq_ok_iff.1 h
        rw [ne_eq, not_not] at hsum
        obtain ⟨bounceable, hb, h⟩ := bind_eq_ok_iff.1 h
        obtain ⟨u, hw, h⟩ := bind_eq_ok_iff.1 h
        cases h
        refine ⟨checkWorkchain_eq_ok_iff.1 hw, ?_⟩
        have hbody : Address.body ⟨workchain.toInt8.toInt32, rest.take 32, bounceable,
            flags &&& testnetFlag ≠ 0, by simp [hlen]⟩ = flags :: workchain :: rest.take 32 := by
          rw [Address.body, toUInt8_of_toInt32 rfl, Address.flags]
          simp only [decide_eq_true_eq]
          rw [← bounceableOf_eq_ok_iff.1 hb]
        rw [hbody, hsum]
        simp
      · cases h
    · cases h
  · rintro ⟨hworkchain, rfl⟩
    -- each of the four flag bytes an address can have is read back as its two booleans
    have hflags : bounceableOf a.flags = .ok a.bounceable ∧
        decide (a.flags &&& testnetFlag ≠ 0) = a.testnet := by
      rw [Address.flags]
      cases a.bounceable <;> cases a.testnet <;> decide
    have hlen : (a.hash ++ Crc16.bytes a.body).length = 34 := by simp [a.hash_length]
    have htake : (a.hash ++ Crc16.bytes a.body).take 32 = a.hash := List.take_left' a.hash_length
    have hdrop : (a.hash ++ Crc16.bytes a.body).drop 32 = Crc16.bytes a.body :=
      List.drop_left' a.hash_length
    have hunfold : a.body ++ Crc16.bytes a.body =
        a.flags :: a.workchain.toInt8.toUInt8 :: (a.hash ++ Crc16.bytes a.body) := rfl
    rw [hunfold, ofBytes, dif_pos hlen]
    simp only [htake, hdrop]
    rw [if_neg (by rw [Address.body]; simp), hflags.1]
    simp only [bind, Except.bind, toInt32_toInt8 hworkchain, checkWorkchain_eq_ok_iff.2 hworkchain,
      hflags.2]

/-! ## The text -/

/-- **An account has one text in the alphabet that a text is read in.** -/
theorem parse_eq_ok_iff {s : Text} (hcolon : ':' ∉ s) {a : Address} :
    parse s = .ok a ↔ (a.workchain = baseChain ∨ a.workchain = masterChain) ∧
      s = a.toTextIn (alphabetOf s) := by
  have hlength : (a.toTextIn (alphabetOf s)).length = 48 := by
    rw [Address.toTextIn, Base64.length_encode]
    simp
  have hprintable : ∀ (alphabet : Base64.Alphabet) (bs : Bytes),
      ∀ c ∈ Base64.encode alphabet bs, 33 ≤ c.toNat ∧ c.toNat ≤ 126 := by
    intro alphabet bs c hc
    have hall : alphabet.digits.all fun d => decide (33 ≤ d.toNat ∧ d.toNat ≤ 126) := by
      cases alphabet <;> decide
    exact of_decide_eq_true (List.all_eq_true.1 hall c (Base64.mem_digits_of_mem_encode hc))
  have hstep : parse s = .ok a ↔ s.byteSize = 48 ∧
      Base64.decode (alphabetOf s) s = .ok (a.body ++ Crc16.bytes a.body) ∧
        (a.workchain = baseChain ∨ a.workchain = masterChain) := by
    rw [parse, Text.cutAtFirst_eq_none_iff.2 hcolon]
    simp only
    by_cases hsize : s.byteSize = 48
    · rw [if_neg (not_not.2 hsize)]
      simp only [bind_eq_ok_iff, mapError_eq_ok_iff, ofBytes_eq_ok_iff, hsize, true_and]
      constructor
      · rintro ⟨bytes, hread, hworkchain, rfl⟩
        exact ⟨hread, hworkchain⟩
      · rintro ⟨hread, hworkchain⟩
        exact ⟨_, hread, hworkchain, rfl⟩
    · rw [if_pos hsize]
      simp [hsize]
  rw [hstep, Base64.decode_eq_ok_iff, ← Address.toTextIn]
  constructor
  · rintro ⟨-, htext, hworkchain⟩
    exact ⟨hworkchain, htext⟩
  · rintro ⟨hworkchain, htext⟩
    refine ⟨?_, htext, hworkchain⟩
    rw [Text.byteSize_of_printable, htext, hlength]
    rw [htext]
    exact hprintable _ _

/-- A text of the URL-safe alphabet is read as one of that alphabet, whether or not it shows
which one it is in. -/
theorem map_digit_alphabetOf {vs : Bytes} (hlt : ∀ v ∈ vs, v.toNat < 64) :
    vs.map (Base64.digit (alphabetOf (vs.map (Base64.digit .urlSafe)))) =
      vs.map (Base64.digit .urlSafe) := by
  unfold alphabetOf
  split
  · rfl
  · next h =>
    rw [not_or] at h
    exact Base64.map_digit_standard_eq hlt h.1 h.2

theorem lt_of_mem_words {bs : Bytes} : ∀ v ∈ Regroup.ofBytes 6 bs, v.toNat < 64 :=
  fun _ => Regroup.lt_of_mem_ofBytes (by decide) (by decide)

theorem colon_not_mem_toText (a : Address) : ':' ∉ a.toText := fun h => by
  have := Base64.mem_digits_of_mem_encode h
  revert this
  decide

/-- **The text that is written for an account in use is read back as it.** -/
theorem parse_toText {a : Address} (h : a.workchain = baseChain ∨ a.workchain = masterChain) :
    parse a.toText = .ok a :=
  (parse_eq_ok_iff (colon_not_mem_toText a)).2 ⟨h, (map_digit_alphabetOf lt_of_mem_words).symm⟩

end Ton

end CoinAddress

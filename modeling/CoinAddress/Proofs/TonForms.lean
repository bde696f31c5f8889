import CoinAddress.Proofs.HexText
import CoinAddress.Proofs.Numeral
import CoinAddress.Proofs.TonText

/-!
# The forms of a TON address

An account in use has two user-friendly texts, one in each alphabet of Base64, and the raw texts,
in which the workchain may be spelled in any way and the digits of the hash are in any letter
case. No other text is read: `parse_iff_form`. Where the two alphabets differ, a text must not mix
them.
-/

namespace CoinAddress

namespace Base64

/-- The character of the standard alphabet in the place of one of the URL-safe alphabet. -/
def toStandard (c : Char) : Char := if c = '-' then '+' else if c = '_' then '/' else c

theorem toStandard_digit {v : UInt8} (h : v.toNat < 64) :
    toStandard (digit .urlSafe v) = digit .standard v := by
  rcases digit_cases h with ⟨hmem, h⟩ | ⟨hurl, h⟩ | ⟨hurl, h⟩
  · have hne : digit .urlSafe v ≠ '-' ∧ digit .urlSafe v ≠ '_' :=
      ⟨fun h => not_mem_commonDigits.1 (h ▸ hmem), fun h => not_mem_commonDigits.2 (h ▸ hmem)⟩
    rw [h, toStandard, if_neg hne.1, if_neg hne.2]
  · rw [hurl, h]
    rfl
  · rw [hurl, h]
    rfl

theorem map_toStandard_encode (bs : Bytes) :
    (encode .urlSafe bs).map toStandard = encode .standard bs := by
  rw [encode_eq_map, encode_eq_map, List.map_map]
  refine List.map_congr_left fun v hv => toStandard_digit ?_
  exact Regroup.lt_of_mem_ofBytes (show 0 < 6 by decide) (by decide) hv

end Base64

namespace Ton

/-! ## User-friendly forms -/

/-- The user-friendly form in the standard alphabet. -/
def Address.toStandardText (a : Address) : Text := a.toText.map Base64.toStandard

theorem Address.toStandardText_eq (a : Address) : a.toStandardText = a.toTextIn .standard :=
  Base64.map_toStandard_encode _

/-- A text of one alphabet has no character that only the other one has. -/
theorem not_mem_toTextIn (alphabet : Base64.Alphabet) {c : Char} (h : c ∉ alphabet.digits)
    (a : Address) : c ∉ a.toTextIn alphabet :=
  fun hmem => h (Base64.mem_digits_of_mem_encode hmem)

theorem alphabetOf_toStandardText (a : Address) : alphabetOf a.toStandardText = .standard := by
  rw [alphabetOf, Address.toStandardText_eq, if_neg]
  rintro (hmem | hmem)
  · exact not_mem_toTextIn .standard (by decide) a hmem
  · exact not_mem_toTextIn .standard (by decide) a hmem

theorem eq_toTextIn_alphabetOf_iff {s : Text} {a : Address} :
    s = a.toTextIn (alphabetOf s) ↔ s = a.toText ∨ s = a.toStandardText := by
  constructor
  · intro h
    cases halphabet : alphabetOf s with
    | standard =>
      rw [halphabet, ← Address.toStandardText_eq] at h
      exact .inr h
    | urlSafe =>
      rw [halphabet] at h
      exact .inl h
  · rintro (rfl | rfl)
    · exact (map_digit_alphabetOf lt_of_mem_words).symm
    · rw [alphabetOf_toStandardText, Address.toStandardText_eq]

/-- A text without a colon is read just when it is one of the two user-friendly forms. -/
theorem parse_friendly_iff {s : Text} {a : Address} :
    parse s = .ok a ∧ ':' ∉ s ↔ (a.workchain = baseChain ∨ a.workchain = masterChain) ∧
      (s = a.toText ∨ s = a.toStandardText) := by
  rw [← eq_toTextIn_alphabetOf_iff]
  constructor
  · rintro ⟨h, hcolon⟩
    exact (parse_eq_ok_iff hcolon).1 h
  · rintro ⟨hworkchain, htext⟩
    have hcolon : ':' ∉ s := by
      rw [htext]
      cases alphabetOf s with
      | standard => exact not_mem_toTextIn .standard (by decide) a
      | urlSafe => exact not_mem_toTextIn .urlSafe (by decide) a
    exact ⟨(parse_eq_ok_iff hcolon).2 ⟨hworkchain, htext⟩, hcolon⟩

/-- Neither user-friendly form mixes the alphabets. -/
theorem not_mixed {s : Text} {a : Address} (h : s = a.toText ∨ s = a.toStandardText) :
    ¬ (('-' ∈ s ∨ '_' ∈ s) ∧ ('+' ∈ s ∨ '/' ∈ s)) := by
  rcases h with rfl | rfl
  · rintro ⟨-, hmem | hmem⟩
    · exact not_mem_toTextIn .urlSafe (by decide) a hmem
    · exact not_mem_toTextIn .urlSafe (by decide) a hmem
  · rw [Address.toStandardText_eq]
    rintro ⟨hmem | hmem, -⟩
    · exact not_mem_toTextIn .standard (by decide) a hmem
    · exact not_mem_toTextIn .standard (by decide) a hmem

/-! ## Raw form -/

/-- What stands before and after the first colon of a raw address. -/
structure RawForm (a : Address) (workchain hash : Text) : Prop where
  workchain : Text.Numeral workchain a.workchain.toInt
  hash_length : hash.length = 64
  hash_digits : ∀ c ∈ hash, Hex.isDigit c = true
  hash_value : hash.map Char.toLower = Hex.encode a.hash
  bounceable : a.bounceable = true
  mainnet : a.testnet = false

/-- Digits for 32 bytes are 64 characters of a byte each. -/
theorem digits_of_hash {hash : Text} {bytes : Bytes} (hlen : bytes.length = 32)
    (h : hash.map Char.toLower = Hex.encode bytes) :
    hash.length = 64 ∧ hash.byteSize = 64 ∧ ∀ c ∈ hash, Hex.isDigit c = true := by
  have hdigit : ∀ c ∈ hash, ∃ d < 16, c.toLower = Hex.digitChar d := fun c hc =>
    Hex.exists_digit_of_mem_encode (h ▸ List.mem_map_of_mem hc)
  have hlength : hash.length = 64 := by
    rw [← List.length_map (f := Char.toLower), h, Hex.length_encode, hlen]
  refine ⟨hlength, ?_, fun c hc => Hex.isDigit_iff.2 (hdigit c hc)⟩
  rw [Text.byteSize_of_printable, hlength]
  intro c hc
  obtain ⟨d, hd, hchar⟩ := hdigit c hc
  rw [← Text.printable_toLower_iff, hchar]
  exact Hex.printable_digitChar hd

theorem ofRaw_eq_ok_iff {workchain hash : Text} {a : Address} :
    ofRaw workchain hash = .ok a ↔
      (a.workchain = baseChain ∨ a.workchain = masterChain) ∧ RawForm a workchain hash := by
  constructor
  · intro h
    unfold ofRaw at h
    split at h
    · cases h
    · next w hw =>
      obtain ⟨u, hcheck, h⟩ := bind_eq_ok_iff.1 h
      obtain ⟨-, h⟩ := refuse_eq_ok_iff.1 h
      obtain ⟨bytes, hbytes, h⟩ := bind_eq_ok_iff.1 h
      split at h
      · next hlen =>
        cases h
        have hvalue := Hex.decode_eq_ok_iff.1 (mapError_eq_ok_iff.1 hbytes)
        obtain ⟨hlength, -, hdigits⟩ := digits_of_hash hlen hvalue
        exact ⟨checkWorkchain_eq_ok_iff.1 hcheck, Text.readInt32_eq_ok_iff.1 hw, hlength, hdigits,
          hvalue, rfl, rfl⟩
      · cases h
  · rintro ⟨hworkchain, hraw⟩
    obtain ⟨-, hsize, -⟩ := digits_of_hash a.hash_length hraw.hash_value
    have hread := Hex.decode_eq_ok_iff.2 hraw.hash_value
    have hcheck := checkWorkchain_eq_ok_iff.2 hworkchain
    obtain ⟨w, bytes, bounceable, testnet, hlen⟩ := a
    rw [ofRaw, Text.readInt32_eq_ok_iff.2 hraw.workchain]
    simp only [bind, Except.bind, hcheck, hsize, hread, Except.mapError, ne_eq, not_true_eq_false,
      if_false, dif_pos hlen]
    rw [show bounceable = true from hraw.bounceable, show testnet = false from hraw.mainnet]

/-- A text with a colon is read just when it is a raw form, cut at the first colon. -/
theorem parse_raw_iff {s : Text} {a : Address} :
    parse s = .ok a ∧ ':' ∈ s ↔ (a.workchain = baseChain ∨ a.workchain = masterChain) ∧
      ∃ workchain hash, s = workchain ++ ':' :: hash ∧ ':' ∉ workchain ∧
        RawForm a workchain hash := by
  constructor
  · rintro ⟨h, hcolon⟩
    cases hcut : Text.cutAtFirst ':' s with
    | none => exact absurd hcolon (Text.cutAtFirst_eq_none_iff.1 hcut)
    | some sides =>
      obtain ⟨workchain, hash⟩ := sides
      obtain ⟨htext, hfirst⟩ := Text.cutAtFirst_eq_some_iff.1 hcut
      rw [parse, hcut] at h
      obtain ⟨hworkchain, hraw⟩ := ofRaw_eq_ok_iff.1 h
      exact ⟨hworkchain, workchain, hash, htext, hfirst, hraw⟩
  · rintro ⟨hworkchain, workchain, hash, rfl, hfirst, hraw⟩
    rw [parse, Text.cutAtFirst_eq_some_iff.2 ⟨rfl, hfirst⟩]
    exact ⟨ofRaw_eq_ok_iff.2 ⟨hworkchain, hraw⟩, by simp⟩

/-! ## All forms -/

/-- **A text is read as an account just when it is one of the account's forms.** Without a colon
these are the user-friendly form and its counterpart in the standard alphabet, so a text that
mixes the two is refused; with a colon they are the spellings of the workchain and of the hash,
which stand for the account with the usual flags. -/
theorem parse_iff_form (s : Text) :
    (∀ a, parse s = .ok a ∧ ':' ∉ s ↔ (a.workchain = 0 ∨ a.workchain = -1) ∧
      (s = a.toText ∨ s = a.toText.map Base64.toStandard)) ∧
    (∀ a, parse s = .ok a ∧ ':' ∈ s ↔ (a.workchain = 0 ∨ a.workchain = -1) ∧
      ∃ workchain hash, s = workchain ++ ':' :: hash ∧ ':' ∉ workchain ∧
        RawForm a workchain hash) ∧
    (':' ∉ s → ('-' ∈ s ∨ '_' ∈ s) → ('+' ∈ s ∨ '/' ∈ s) → ∃ e, parse s = .error e) := by
  refine ⟨fun a => parse_friendly_iff, fun a => parse_raw_iff, ?_⟩
  intro hcolon hurl hstandard
  cases hread : parse s with
  | error e => exact ⟨e, rfl⟩
  | ok a =>
    obtain ⟨-, hform⟩ := parse_friendly_iff.1 ⟨hread, hcolon⟩
    exact absurd ⟨hurl, hstandard⟩ (not_mixed hform)

/-- A text of the master chain with one character of the other alphabet. -/
theorem parse_iff_form_mixed :
    ':' ∉ "Ef/7-_v7-_v7-_v7-_v7-_v7-_v7-_v7-_v7-_v7-_v7-75c".toList ∧
      ∃ e, parse "Ef/7-_v7-_v7-_v7-_v7-_v7-_v7-_v7-_v7-_v7-_v7-75c".toList = .error e :=
  have hcolon : ':' ∉ "Ef/7-_v7-_v7-_v7-_v7-_v7-_v7-_v7-_v7-_v7-_v7-75c".toList := by decide
  ⟨hcolon, (parse_iff_form _).2.2 hcolon (.inl (by decide)) (.inr (by decide))⟩

end Ton

end CoinAddress

import CoinAddress.Family.Codec
import CoinAddress.Proofs.LetterCase
import CoinAddress.Proofs.Outcome

/-!
# Which texts are hexadecimal addresses

Reading takes the digits in any letter case, so what is read is the text in small letters:
`Hex.decode_eq_ok_iff`. An account of an EVM chain is accepted behind either mark, with its digits
in one letter case or in the case that the checksum asks for: `Evm.validate_eq_ok_iff`.
-/

namespace CoinAddress

open Text (mixedCase)

namespace Hex

/-- The value of a digit does not depend on its case. -/
theorem digitValue?_toLower (c : Char) : digitValue? c.toLower = digitValue? c := by
  by_cases hu : c.isUpper
  · have hrange := Text.isUpper_iff.1 hu
    simp only [digitValue?, Text.toNat_toLower, if_pos hu]
    split_ifs <;> first | omega | rfl
  · rw [Text.toLower_of_not_isUpper hu]

/-- A digit in either letter case has the value of the small one. -/
theorem digitValue?_eq_some_iff {c : Char} {d : Nat} :
    digitValue? c = some d ↔ d < 16 ∧ c.toLower = digitChar d := by
  constructor
  · intro h
    have hlow := Text.not_isUpper_toLower c
    rw [Text.isUpper_iff] at hlow
    -- no capital is left, so the codes of the digits are in two ranges
    have hcode : d < 16 ∧ c.toLower.toNat = if d < 10 then 0x30 + d else 0x61 + (d - 10) := by
      rw [← digitValue?_toLower, digitValue?] at h
      split_ifs at h ⊢ <;> simp only [Option.some.injEq] at h <;> omega
    refine ⟨hcode.1, ?_⟩
    rw [← Char.ofNat_toNat c.toLower, hcode.2, digitChar, apply_ite Char.ofNat]
  · rintro ⟨hd, h⟩
    rw [← digitValue?_toLower, h, digitValue?_digitChar hd]

theorem encode_cons (b : UInt8) (bs : Bytes) :
    encode (b :: bs) = digitChar (b.toNat / 16) :: digitChar (b.toNat % 16) :: encode bs := rfl

theorem digitChar_injective {d e : Nat} (hd : d < 16) (he : e < 16)
    (h : digitChar d = digitChar e) : d = e := by
  have hread := digitValue?_digitChar hd
  rw [h, digitValue?_digitChar he] at hread
  exact (Option.some.inj hread).symm

/-- Just the texts of the bytes are read, in any letter case; the place of the text only goes into
errors. -/
theorem decodeFrom_eq_ok_iff {position : Nat} {s : Text} {bs : Bytes} :
    decodeFrom position s = .ok bs ↔ s.map Char.toLower = encode bs := by
  induction position, s using decodeFrom.induct generalizing bs with
  | case1 =>
    cases bs with
    | nil => simp [decodeFrom, encode]
    | cons b bs => simp [decodeFrom, encode_cons]
  | case2 position c =>
    cases bs with
    | nil => simp [decodeFrom, encode]
    | cons b bs => simp [decodeFrom, encode_cons]
  | case3 position c d s hc =>
    rw [decodeFrom, hc]
    cases bs with
    | nil => simp [encode]
    | cons b bs =>
      have hne : c.toLower ≠ digitChar (b.toNat / 16) := fun h => by
        have hlt := UInt8.toNat_lt_size b
        rw [UInt8.size] at hlt
        rw [digitValue?_eq_some_iff.2 ⟨show b.toNat / 16 < 16 by omega, h⟩] at hc
        cases hc
      simp [encode_cons, hne]
  | case4 position c d s high hd hc =>
    rw [decodeFrom, hc, hd]
    cases bs with
    | nil => simp [encode]
    | cons b bs =>
      have hne : d.toLower ≠ digitChar (b.toNat % 16) := fun h => by
        rw [digitValue?_eq_some_iff.2 ⟨Nat.mod_lt _ (by decide), h⟩] at hd
        cases hd
      simp [encode_cons, hne]
  | case5 position c d s high low hd hc ih =>
    obtain ⟨hhigh, hc'⟩ := digitValue?_eq_some_iff.1 hc
    obtain ⟨hlow, hd'⟩ := digitValue?_eq_some_iff.1 hd
    rw [decodeFrom, hc, hd]
    simp only
    have hbyte : (UInt8.ofNat (high * 16 + low)).toNat = high * 16 + low :=
      UInt8.toNat_ofNat_of_lt (by rw [UInt8.size]; omega)
    cases bs with
    | nil => cases decodeFrom (position + 2) s <;> simp [encode, Except.map]
    | cons b bs =>
      rw [List.map_cons, List.map_cons, hc', hd', encode_cons]
      simp only [List.cons.injEq]
      constructor
      · intro h
        obtain ⟨us, hs, hcons⟩ := map_eq_ok_iff.1 h
        cases hcons
        rw [hbyte, show (high * 16 + low) / 16 = high by omega,
          show (high * 16 + low) % 16 = low by omega]
        exact ⟨rfl, rfl, ih.1 hs⟩
      · rintro ⟨hh, hl, hrest⟩
        have hlt := UInt8.toNat_lt_size b
        rw [UInt8.size] at hlt
        have hhigh' := digitChar_injective hhigh (show b.toNat / 16 < 16 by omega) hh
        have hlow' := digitChar_injective hlow (Nat.mod_lt _ (by decide)) hl
        have hb : UInt8.ofNat (high * 16 + low) = b := by
          rw [← UInt8.toNat_inj, hbyte]
          omega
        rw [ih.2 hrest, ← hb]
        rfl

theorem printable_digitChar {d : Nat} (h : d < 16) :
    33 ≤ (digitChar d).toNat ∧ (digitChar d).toNat ≤ 126 := by
  have hall : ∀ e ∈ List.range 16, 33 ≤ (digitChar e).toNat ∧ (digitChar e).toNat ≤ 126 := by decide
  exact hall d (List.mem_range.2 h)

theorem exists_digit_of_mem_encode {bs : Bytes} {c : Char} (h : c ∈ encode bs) :
    ∃ d < 16, c = digitChar d := by
  obtain ⟨b, -, hc⟩ := List.mem_flatMap.1 h
  have hlt := UInt8.toNat_lt_size b
  rw [UInt8.size] at hlt
  rw [encodeByte, List.mem_cons, List.mem_singleton] at hc
  rcases hc with rfl | rfl
  · exact ⟨b.toNat / 16, by omega, rfl⟩
  · exact ⟨b.toNat % 16, by omega, rfl⟩

/-- **A text is read as bytes just when its small letters are what is written for them.** -/
theorem decode_eq_ok_iff {s : Text} {bs : Bytes} :
    decode s = .ok bs ↔ s.map Char.toLower = encode bs := by
  rw [decode]
  constructor
  · intro h
    split at h
    · cases h
    · exact decodeFrom_eq_ok_iff.1 h
  · intro h
    have hprintable : ∀ c ∈ s, 33 ≤ c.toNat ∧ c.toNat ≤ 126 := by
      intro c hc
      obtain ⟨d, hd, hdigit⟩ := exists_digit_of_mem_encode (h ▸ List.mem_map.2 ⟨c, hc, rfl⟩)
      rw [← Text.printable_toLower_iff, hdigit]
      exact printable_digitChar hd
    have hlen : s.length = 2 * bs.length := by
      rw [← length_encode, ← h, List.length_map]
    rw [Text.byteSize_of_printable hprintable, hlen, if_neg (by omega)]
    exact decodeFrom_eq_ok_iff.2 h

/-- The digits are those that are written, in either letter case. -/
theorem isDigit_iff {c : Char} : isDigit c ↔ ∃ d < 16, c.toLower = digitChar d := by
  rw [isDigit, Option.isSome_iff_exists]
  exact exists_congr fun d => digitValue?_eq_some_iff

theorem encode_injective {as bs : Bytes} (h : encode as = encode bs) : as = bs := by
  have hread := decode_encode as
  rw [h, decode_encode] at hread
  exact (Except.ok.inj hread).symm

theorem noUpper_encode (bs : Bytes) : ∀ c ∈ encode bs, ¬ c.isUpper := by
  intro c hc
  obtain ⟨d, hd, rfl⟩ := exists_digit_of_mem_encode hc
  have hall : ∀ e ∈ List.range 16, ¬ (digitChar e).isUpper := by decide
  exact hall d (List.mem_range.2 hd)

end Hex

namespace Evm

theorem checkDigits_eq_ok_iff {digits : Text} :
    checkDigits digits = .ok () ↔ ∀ c ∈ digits, Hex.isDigit c := by
  rw [checkDigits]
  cases h : digits.find? fun c => !Hex.isDigit c with
  | none => simpa using h
  | some c =>
    have hc := List.find?_some h
    have hmem := List.mem_of_find?_eq_some h
    simp only [reduceCtorEq, false_iff, not_forall]
    exact ⟨c, hmem, by simpa using hc⟩

theorem digitsOf_eq_ok_iff {s digits : Text} :
    digitsOf s = .ok digits ↔ s = '0' :: 'x' :: digits ∨ s = '0' :: 'X' :: digits := by
  constructor
  · intro h
    unfold digitsOf at h
    split at h
    · cases h
      exact .inl rfl
    · cases h
      exact .inr rfl
    · cases h
  · rintro (rfl | rfl)
    · rfl
    · rfl

/-- An account is read behind either mark, from digits in any letter case. -/
theorem parse_eq_ok_iff {s : Text} {account : Bytes} :
    parse s = .ok account ↔ account.length = 20 ∧ ∃ digits, digitsOf s = .ok digits ∧
      digits.map Char.toLower = Hex.encode account := by
  have hlength : ∀ digits : Text, digits.map Char.toLower = Hex.encode account →
      digits.length = 2 * account.length := by
    intro digits htext
    have := congrArg List.length htext
    rwa [List.length_map, Hex.length_encode] at this
  rw [parse, bind_eq_ok_iff]
  constructor
  · rintro ⟨digits, hdigits, h⟩
    obtain ⟨u, -, h⟩ := bind_eq_ok_iff.1 h
    obtain ⟨hlen, h⟩ := refuse_eq_ok_iff.1 h
    have htext := Hex.decode_eq_ok_iff.1 (mapError_eq_ok_iff.1 h)
    have htotal := hlength digits htext
    rw [not_not.1 hlen] at htotal
    exact ⟨(Nat.mul_left_cancel (by decide) htotal).symm, digits, hdigits, htext⟩
  · rintro ⟨hlen, digits, hdigits, htext⟩
    have hall : ∀ c ∈ digits, Hex.isDigit c := fun c hc => Hex.isDigit_iff.2
      (Hex.exists_digit_of_mem_encode (htext ▸ List.mem_map.2 ⟨c, hc, rfl⟩))
    refine ⟨digits, hdigits, bind_eq_ok_iff.2 ⟨(), checkDigits_eq_ok_iff.2 hall, ?_⟩⟩
    refine refuse_eq_ok_iff.2 ⟨not_not.2 ?_, mapError_eq_ok_iff.2 (Hex.decode_eq_ok_iff.2 htext)⟩
    rw [hlength digits htext, hlen]
    rfl

/-! ### Checksums of any digest -/

/-- The digits of an account with the checksum that a digest function puts into their case. -/
def digitsBy (digest : Bytes → Bytes) (account : Bytes) : Text :=
  capitalize (digest (Hex.encode account).utf8) (Hex.encode account)

/-- The text of an account with that checksum. -/
def textBy (digest : Bytes → Bytes) (account : Bytes) : Text :=
  '0' :: 'x' :: digitsBy digest account

/-- The text with that checksum, of a text in any letter case. -/
def checksumBy (digest : Bytes → Bytes) (s : Text) : Except AddressError Text :=
  (parse s).map (textBy digest)

/-- Refuses what is no address, and a text in both letter cases without that checksum. -/
def validateBy (digest : Bytes → Bytes) (s : Text) : Except AddressError Unit := do
  let account ← parse s
  let digits := s.drop 2
  if digits.any Char.isLower && digits.any Char.isUpper && digits != digitsBy digest account then
    .error .checksumMismatch
  else .ok ()

theorem checksumBy_keccak : checksumBy Keccak256.hash = checksum := rfl

theorem validateBy_keccak : validateBy Keccak256.hash = validate := rfl

variable {digest : Bytes → Bytes}

/-- With any digest, digits in both letter cases must be those that the digest picks. -/
theorem validateBy_eq_ok_iff {s : Text} :
    validateBy digest s = .ok () ↔ ∃ account digits, account.length = 20 ∧
      digitsOf s = .ok digits ∧ digits.map Char.toLower = Hex.encode account ∧
        (mixedCase digits = false ∨ digits = digitsBy digest account) := by
  have hdrop : ∀ digits, digitsOf s = .ok digits → s.drop 2 = digits := by
    intro digits h
    rcases digitsOf_eq_ok_iff.1 h with rfl | rfl <;> rfl
  have hcheck : ∀ (digits : Text) (account : Bytes),
      ¬ (digits.any Char.isLower && digits.any Char.isUpper && digits != digitsBy digest account) ↔
        mixedCase digits = false ∨ digits = digitsBy digest account := by
    intro digits account
    rw [← mixedCase, Bool.and_eq_true, not_and_or, Bool.not_eq_true, bne_iff_ne, not_not]
  rw [validateBy, bind_eq_ok_iff]
  constructor
  · rintro ⟨account, hs, h⟩
    obtain ⟨hlen, digits, hdigits, htext⟩ := parse_eq_ok_iff.1 hs
    obtain ⟨hcase, -⟩ := refuse_eq_ok_iff.1 h
    rw [hdrop digits hdigits, hcheck] at hcase
    exact ⟨account, digits, hlen, hdigits, htext, hcase⟩
  · rintro ⟨account, digits, hlen, hdigits, htext, hcase⟩
    refine ⟨account, parse_eq_ok_iff.2 ⟨hlen, digits, hdigits, htext⟩, ?_⟩
    refine refuse_eq_ok_iff.2 ⟨?_, rfl⟩
    rw [hdrop digits hdigits]
    exact (hcheck digits account).2 hcase

/-- **An account is accepted with digits in one letter case, or in the case of the checksum.** -/
theorem validate_eq_ok_iff {s : Text} :
    validate s = .ok () ↔ ∃ account digits, account.length = 20 ∧ digitsOf s = .ok digits ∧
      digits.map Char.toLower = Hex.encode account ∧
        (mixedCase digits = false ∨ digits = checksumDigits account) := by
  rw [← validateBy_keccak]
  exact validateBy_eq_ok_iff

/-- The checksum is in the letter case only. -/
theorem map_toLower_capitalize (digest : Bytes) (digits : Text) :
    (capitalize digest digits).map Char.toLower = digits.map Char.toLower := by
  rw [capitalize]
  refine List.ext_getElem (by simp) fun i _ _ => ?_
  simp only [List.getElem_map, List.getElem_mapIdx]
  rw [apply_ite Char.toLower, Text.toLower_toUpper, ite_self]

/-- A checksum changes nothing but the case of letters. -/
theorem map_toLower_digitsBy (digest : Bytes → Bytes) (account : Bytes) :
    (digitsBy digest account).map Char.toLower = Hex.encode account := by
  rw [digitsBy, map_toLower_capitalize, Text.map_toLower_of_noUpper (Hex.noUpper_encode account)]

theorem map_toLower_checksumDigits (account : Bytes) :
    (checksumDigits account).map Char.toLower = Hex.encode account :=
  map_toLower_digitsBy Keccak256.hash account

end Evm

namespace Sui

theorem digitsOf_eq_ok_iff {s digits : Text} :
    digitsOf s = .ok digits ↔ s = '0' :: 'x' :: digits := by
  constructor
  · intro h
    unfold digitsOf at h
    split at h
    · cases h
      rfl
    · cases h
  · rintro rfl
    rfl

theorem validate_eq_ok_iff {s : Text} :
    validate s = .ok () ↔ ∃ digits, s = '0' :: 'x' :: digits ∧ digits.length = 64 ∧
      ∀ c ∈ digits, Hex.isDigit c := by
  rw [validate, bind_eq_ok_iff]
  refine exists_congr fun digits => ?_
  rw [digitsOf_eq_ok_iff, bind_eq_ok_iff, ← Evm.checkDigits_eq_ok_iff]
  refine and_congr_right fun _ => ?_
  constructor
  · rintro ⟨u, hall, h⟩
    exact ⟨(guard_eq_ok_iff.1 h).1, hall⟩
  · rintro ⟨hlen, hall⟩
    exact ⟨(), hall, guard_eq_ok_iff.2 ⟨hlen, rfl⟩⟩

end Sui

end CoinAddress

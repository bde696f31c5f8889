import CoinAddress.Proofs.CashAddrForms
import CoinAddress.Family.Codec

/-!
# Which versions of a Bitcoin Cash address are accepted

A version says what an address pays to. Its three lowest bits give the length of the hash and are
the only ones that are looked at, so under every label 32 versions are accepted, of which two are
those of a key and of a script: `accepted_versions`. The other five bits are the first character of
an address behind its label, so the two are the addresses that start with `q` or `p` there. That
others are accepted shows in `exists_other_version`.
-/

namespace CoinAddress.CashAddr

/-- The part of a text behind its first colon, which is the whole text if there is none. -/
def behindLabel (s : Text) : Text := ((Text.cutAtFirst ':' s).map Prod.snd).getD s

theorem behindLabel_append {label body : Text} (h : ':' ∉ label) :
    behindLabel (label ++ ':' :: body) = body := by
  rw [behindLabel, Text.cutAtFirst_eq_some_iff.2 ⟨rfl, h⟩]
  rfl

theorem behindLabel_of_not_mem {body : Text} (h : ':' ∉ body) : behindLabel body = body := by
  rw [behindLabel, Text.cutAtFirst_eq_none_iff.2 h]
  rfl

/-- An address starts with the character of the version's upper bits. -/
theorem head?_bodyOf (label : Text) (version : UInt8) (hash : Bytes) :
    (bodyOf label version hash).head? = some (Base32.digit (version >>> 3)) := by
  obtain ⟨w, ws, hwords, hw⟩ := Regroup.ofBytes_cons (show 0 < 5 by decide) (by decide) version hash
  have hfirst : w = version >>> 3 := by
    rw [← UInt8.toNat_inj, hw, UInt8.toNat_shiftRight]
    rfl
  rw [bodyOf, wordsWithChecksum, CyclicCode.withChecksum, hwords, hfirst]
  rfl

theorem head?_of_decode {label s : Text} {version : UInt8} {hash : Bytes}
    (h : decode s label = .ok (version, hash)) :
    (behindLabel (s.map Char.toLower)).head? = some (Base32.digit (version >>> 3)) := by
  obtain ⟨-, -, -, hform⟩ := decode_eq_ok_iff_of_any.1 h
  rcases hform with ⟨hcolon, htext⟩ | htext
  · rw [htext, behindLabel_append hcolon, head?_bodyOf]
  · rw [htext, behindLabel_of_not_mem (colon_not_mem_bodyOf label version hash), head?_bodyOf]

theorem toNat_shiftRight_three (version : UInt8) :
    (version >>> 3).toNat = version.toNat / 8 := by
  rw [UInt8.toNat_shiftRight]
  exact Nat.shiftRight_eq_div_pow version.toNat 3

theorem shiftRight_three_lt (version : UInt8) : (version >>> 3).toNat < 32 := by
  have : version.toNat < 256 := UInt8.toNat_lt_size version
  rw [toNat_shiftRight_three]
  omega

/-- Versions that ask for the same length are told apart by that character. -/
theorem eq_of_digit_eq {v w : UInt8} (hv : v &&& 0x07 = 0) (hw : w &&& 0x07 = 0)
    (h : Base32.digit (v >>> 3) = Base32.digit (w >>> 3)) : v = w := by
  have hwords : v >>> 3 = w >>> 3 := by
    have hread := Base32.value?_digit (shiftRight_three_lt v)
    rw [h, Base32.value?_digit (shiftRight_three_lt w)] at hread
    exact (Option.some.inj hread).symm
  have hquot := congrArg UInt8.toNat hwords
  have hlow := mod_eight_of_version hv
  have hlow' := mod_eight_of_version hw
  rw [toNat_shiftRight_three, toNat_shiftRight_three] at hquot
  rw [← UInt8.toNat_inj]
  omega

theorem validate_eq_ok_iff {label s : Text} :
    (Family.cashAddr label).validate s = .ok () ↔
      ∃ version hash, decode s label = .ok (version, hash) := by
  rw [Family.validate, map_unit_eq_ok_iff, Prod.exists]

/-- **The versions that are accepted** under any label, with any hash of 20 bytes, are those without
the three bits for the length. An accepted address is that of a key or of a script just when it
starts with the character of one of them. -/
theorem accepted_versions (label : Text) :
    (∀ version hash, (∃ s, (Family.cashAddr label).validate s = .ok () ∧
      decode s label = .ok (version, hash)) ↔ version &&& 0x07 = 0 ∧ hash.length = 20) ∧
    ∀ s, (Family.cashAddr label).validate s = .ok () →
      ((∃ version hash, decode s label = .ok (version, hash) ∧
        (version = payToKey ∨ version = payToScript)) ↔
      ∃ c, (behindLabel (s.map Char.toLower)).head? = some c ∧ (c = 'q' ∨ c = 'p')) := by
  constructor
  · intro version hash
    constructor
    · rintro ⟨s, -, h⟩
      obtain ⟨-, hversion, hlen, -⟩ := decode_eq_ok_iff_of_any.1 h
      exact ⟨hversion, hlen⟩
    · rintro ⟨hversion, hlen⟩
      have hnone := noUpper_bodyOf label version hash
      have hread : decode (bodyOf label version hash) label = .ok (version, hash) :=
        decode_eq_ok_iff_of_any.2 ⟨Text.mixedCase_of_noUpper hnone, hversion, hlen,
          .inr (Text.map_toLower_of_noUpper hnone)⟩
      exact ⟨_, validate_eq_ok_iff.2 ⟨version, hash, hread⟩, hread⟩
  · intro s hs
    obtain ⟨version, hash, h⟩ := validate_eq_ok_iff.1 hs
    obtain ⟨-, hversion, -, -⟩ := decode_eq_ok_iff_of_any.1 h
    have hq : Base32.digit (payToKey >>> 3) = 'q' := by decide
    have hp : Base32.digit (payToScript >>> 3) = 'p' := by decide
    constructor
    · rintro ⟨v, g, hv, hkind⟩
      refine ⟨_, head?_of_decode hv, ?_⟩
      rcases hkind with rfl | rfl
      · exact .inl hq
      · exact .inr hp
    · rintro ⟨c, hc, hkind⟩
      rw [head?_of_decode h, Option.some.injEq] at hc
      refine ⟨version, hash, h, ?_⟩
      rcases hkind with rfl | rfl
      · exact .inl (eq_of_digit_eq hversion (by decide) (hc.trans hq.symm))
      · exact .inr (eq_of_digit_eq hversion (by decide) (hc.trans hp.symm))

set_option maxRecDepth 1000 in
/-- The sample hash as that of a script, under a version that stands for no kind of payment, and
under one with the bit that is reserved. -/
theorem decode_samples :
    decode "bitcoincash:ppm2qsznhks23z7629mms6s4cwef74vcwvn0h829pq".toList "bitcoincash".toList =
        .ok (payToScript, sampleHash) ∧
      decode "bitcoincash:zpm2qsznhks23z7629mms6s4cwef74vcwvrqekrq9w".toList "bitcoincash".toList =
        .ok (0x10, sampleHash) ∧
      decode "bitcoincash:spm2qsznhks23z7629mms6s4cwef74vcwv4glwxl5g".toList "bitcoincash".toList =
        .ok (0x80, sampleHash) :=
  ⟨rfl, rfl, rfl⟩

/-- The address of a script, whose body starts with `p`. -/
theorem accepted_versions_script :
    (Family.cashAddr "bitcoincash".toList).validate
        "bitcoincash:ppm2qsznhks23z7629mms6s4cwef74vcwvn0h829pq".toList = .ok () ∧
      ∃ version hash, decode "bitcoincash:ppm2qsznhks23z7629mms6s4cwef74vcwvn0h829pq".toList
        "bitcoincash".toList = .ok (version, hash) ∧
          (version = payToKey ∨ version = payToScript) := by
  have hread := decode_samples.1
  have hok := validate_eq_ok_iff.2 ⟨_, _, hread⟩
  have hfirst := (head?_of_decode hread).trans (show _ = some 'p' by decide)
  exact ⟨hok, ((accepted_versions "bitcoincash".toList).2 _ hok).2 ⟨'p', hfirst, .inr rfl⟩⟩

/-- **Addresses of other versions are accepted:** one whose version stands for no kind of payment,
and one with the bit that is reserved. -/
theorem exists_other_version :
    (Family.cashAddr "bitcoincash".toList).validate
        "bitcoincash:zpm2qsznhks23z7629mms6s4cwef74vcwvrqekrq9w".toList = .ok () ∧
      decode "bitcoincash:zpm2qsznhks23z7629mms6s4cwef74vcwvrqekrq9w".toList "bitcoincash".toList =
        .ok (0x10, sampleHash) ∧
      (Family.cashAddr "bitcoincash".toList).validate
        "bitcoincash:spm2qsznhks23z7629mms6s4cwef74vcwv4glwxl5g".toList = .ok () ∧
      decode "bitcoincash:spm2qsznhks23z7629mms6s4cwef74vcwv4glwxl5g".toList "bitcoincash".toList =
        .ok (0x80, sampleHash) ∧
      (0x10 ≠ payToKey ∧ 0x10 ≠ payToScript) ∧ 0x80 ≠ payToKey ∧ 0x80 ≠ payToScript := by
  obtain ⟨-, hkind, hreserved⟩ := decode_samples
  refine ⟨validate_eq_ok_iff.2 ⟨_, _, hkind⟩, hkind, validate_eq_ok_iff.2 ⟨_, _, hreserved⟩,
    hreserved, ?_⟩
  decide

end CoinAddress.CashAddr

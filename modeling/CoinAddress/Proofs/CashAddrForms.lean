import CoinAddress.Proofs.CashAddrText

/-!
# The forms of a Bitcoin Cash address

The texts that are read as a version and a hash are the address that is written for them, the
same without its label, and both in capitals; and writing any version is read back, but a version
that asks for a hash of another length is refused as such: `decode_iff_written`.
-/

namespace CoinAddress.CashAddr

open Text (mixedCase)

/-- What is written is read from its words: nothing is lost at the colon or in the letter case. -/
theorem decode_address {label : Text} (hlow : ∀ c ∈ label, ¬ c.isUpper) (hcolon : ':' ∉ label)
    (version : UInt8) (hash : Bytes) :
    decode (label ++ ':' :: bodyOf label version hash) label =
      decodeWords label (wordsWithChecksum label version hash) := by
  have hnone := noUpper_address hlow version hash
  have hcase : mixedCase (label ++ ':' :: bodyOf label version hash) = false :=
    Text.mixedCase_of_noUpper hnone
  have hcut := Text.cutAtFirst_eq_some_iff.2
    ⟨(rfl : label ++ ':' :: bodyOf label version hash = _), hcolon⟩
  have hwords : wordsOf (bodyOf label version hash) = .ok (wordsWithChecksum label version hash) :=
    wordsOf_eq_ok_iff.2 ⟨lt_of_mem_wordsWithChecksum, rfl⟩
  rw [mixedCase] at hcase
  rw [decode, if_neg (Bool.eq_false_iff.1 hcase), Text.map_toLower_of_noUpper hnone]
  simp only [hcut, Option.getD_some, ne_eq, not_true_eq_false, if_false, hwords]
  rfl

/-- **A text is read as a version and a hash just when its small letters are their address, with
the label or without it.** Writing never fails for a hash of 20 bytes, and what is written is read
back unless the version asks for another length, which is then the error. -/
theorem decode_iff_written {label : Text} (hlow : ∀ c ∈ label, ¬ c.isUpper)
    (hcolon : ':' ∉ label) :
    (∀ (s : Text) (version : UInt8) (hash : Bytes), decode s label = .ok (version, hash) ↔
      mixedCase s = false ∧ version &&& 0x07 = 0 ∧ hash.length = 20 ∧
        ∃ t, encode label version hash = .ok t ∧
          (s.map Char.toLower = t ∨ label ++ ':' :: s.map Char.toLower = t)) ∧
    ∀ (version : UInt8) (hash : Bytes), hash.length = 20 →
      ∃ t, encode label version hash = .ok t ∧ decode t label =
        if version &&& 0x07 = 0 then .ok (version, hash)
        else .error (.invalidEncoding (.cashSize version 20)) := by
  constructor
  · intro s version hash
    rw [decode_eq_ok_iff hcolon]
    refine and_congr_right fun _ => and_congr_right fun _ => and_congr_right fun hlen => ?_
    -- without its label, the text is the address once the label is put back
    have hbare : s.map Char.toLower = bodyOf label version hash ↔
        label ++ ':' :: s.map Char.toLower = label ++ ':' :: bodyOf label version hash := by
      rw [List.append_cancel_left_eq, List.cons.injEq, eq_self, true_and]
    constructor
    · intro htext
      exact ⟨_, encode_eq_ok_iff.2 ⟨hlen, rfl⟩, htext.imp_right hbare.1⟩
    · rintro ⟨t, ht, htext⟩
      obtain ⟨-, rfl⟩ := encode_eq_ok_iff.1 ht
      exact htext.imp_right hbare.2
  · intro version hash hlen
    refine ⟨_, encode_eq_ok_iff.2 ⟨hlen, rfl⟩, ?_⟩
    rw [decode_address hlow hcolon, decodeWords_wordsWithChecksum, hlen]
    by_cases hversion : version &&& 0x07 = 0
    · rw [if_pos hversion, if_neg]
      rintro (hne | hne)
      · exact hne hversion
      · exact hne rfl
    · rw [if_neg hversion, if_pos (.inl hversion)]

/-- The hash of a script. -/
def sampleHash : Bytes :=
  [0x76, 0xa0, 0x40, 0x53, 0xbd, 0xa0, 0xa8, 0x8b, 0xda, 0x51, 0x77, 0xb8, 0x6a, 0x15, 0xc3, 0xb2,
   0x9f, 0x55, 0x98, 0x73]

/-- An address in capitals without its label, and one whose version asks for another length. -/
theorem decode_iff_written_bitcoincash :
    (∀ c ∈ "bitcoincash".toList, ¬ c.isUpper) ∧ ':' ∉ "bitcoincash".toList ∧
      decode "PPM2QSZNHKS23Z7629MMS6S4CWEF74VCWVN0H829PQ".toList "bitcoincash".toList =
        .ok (payToScript, sampleHash) ∧
      ∃ t, encode "bitcoincash".toList 0x01 sampleHash = .ok t ∧
        decode t "bitcoincash".toList = .error (.invalidEncoding (.cashSize 0x01 20)) :=
  have hlow : ∀ c ∈ "bitcoincash".toList, ¬ c.isUpper :=
    List.any_eq_false.1 (show "bitcoincash".toList.any Char.isUpper = false by decide)
  have hcolon : ':' ∉ "bitcoincash".toList := by decide
  have hwritten : encode "bitcoincash".toList payToScript sampleHash =
      .ok "bitcoincash:ppm2qsznhks23z7629mms6s4cwef74vcwvn0h829pq".toList := by decide +kernel
  have hbare : "bitcoincash".toList ++
      ':' :: "PPM2QSZNHKS23Z7629MMS6S4CWEF74VCWVN0H829PQ".toList.map Char.toLower =
        "bitcoincash:ppm2qsznhks23z7629mms6s4cwef74vcwvn0h829pq".toList := by decide +kernel
  ⟨hlow, hcolon,
    ((decode_iff_written hlow hcolon).1 _ _ _).2
      ⟨by decide, by decide, rfl, _, hwritten, .inr hbare⟩,
    (decode_iff_written hlow hcolon).2 0x01 sampleHash rfl⟩

end CoinAddress.CashAddr

import CoinAddress.Proofs.CashAddrForms
import CoinAddress.Proofs.CodeDistance
import CoinAddress.Proofs.Garbled

/-!
# What the checksum of Bitcoin Cash detects

Two lists of words that are accepted under one label differ over more than eight positions. So a
text that is garbled within eight consecutive characters of an address is refused:
`garbled_is_refused`.

Addresses have 42 words behind the label. Within that length two of them differ in three positions
or more, wherever these are: `three_le_differences`.
-/

namespace CoinAddress.CashAddr

theorem differences_bodyOf (label : Text) (version version' : UInt8) (hash hash' : Bytes) :
    differences (bodyOf label version hash) (bodyOf label version' hash') =
      differences (wordsWithChecksum label version hash) (wordsWithChecksum label version' hash') :=
  Base32.differences_encode lt_of_mem_wordsWithChecksum lt_of_mem_wordsWithChecksum

theorem length_wordsWithChecksum {label : Text} {version : UInt8} {hash : Bytes}
    (h : hash.length = 20) : (wordsWithChecksum label version hash).length = 42 := by
  rw [← Base32.length_encode]
  exact length_bodyOf h

/-! ## Errors in one place -/

/-- Words with the right remainder differ over more than eight positions. -/
theorem differOver_of_residue {label : Text} {a b : Bytes} (ha : ∀ w ∈ a, w.toNat < 32)
    (hb : ∀ w ∈ b, w.toNat < 32) (hlen : a.length = b.length)
    (hsum : code.residue (expandLabel label ++ a) = 1)
    (hsum' : code.residue (expandLabel label ++ b) = 1) (hne : a ≠ b) : DifferOver 8 a b :=
  CyclicCode.differOver_of_residue_eq CyclicCode.sound_cashAddr ha hb hlen hne
    (hsum.trans hsum'.symm)

/-- Accepted texts of one length have their addresses behind the same characters. -/
theorem exists_bodies {label s t : Text} {r r' : UInt8 × Bytes} (hs : decode s label = .ok r)
    (ht : decode t label = .ok r') (hlen : s.length = t.length) :
    ∃ front, s.map Char.toLower = front ++ bodyOf label r.1 r.2 ∧
      t.map Char.toLower = front ++ bodyOf label r'.1 r'.2 := by
  obtain ⟨-, -, hhash, hform⟩ := decode_eq_ok_iff_of_any.1 hs
  obtain ⟨-, -, hhash', hform'⟩ := decode_eq_ok_iff_of_any.1 ht
  have hlower : (s.map Char.toLower).length = (t.map Char.toLower).length := by simpa using hlen
  have hbody : (bodyOf label r.1 r.2).length = 42 := length_bodyOf hhash
  have hbody' : (bodyOf label r'.1 r'.2).length = 42 := length_bodyOf hhash'
  rcases hform with ⟨-, hs⟩ | hs <;> rcases hform' with ⟨-, ht⟩ | ht
  · exact ⟨label ++ [':'], by simp [hs], by simp [ht]⟩
  -- with the label, the text is longer than without it
  · rw [hs, ht, List.length_append, List.length_cons] at hlower
    omega
  · rw [hs, ht, List.length_append, List.length_cons] at hlower
    omega
  · exact ⟨[], hs, ht⟩

/-- Accepted texts of one length are the same or differ over more than eight positions. -/
theorem differOver_of_decode {label s t : Text} {r r' : UInt8 × Bytes}
    (hs : decode s label = .ok r) (ht : decode t label = .ok r') (hlen : s.length = t.length)
    (hne : s.map Char.toLower ≠ t.map Char.toLower) :
    DifferOver 8 (s.map Char.toLower) (t.map Char.toLower) := by
  obtain ⟨-, -, hhash, -⟩ := decode_eq_ok_iff_of_any.1 hs
  obtain ⟨-, -, hhash', -⟩ := decode_eq_ok_iff_of_any.1 ht
  obtain ⟨front, hs, ht⟩ := exists_bodies hs ht hlen
  rw [hs, ht] at hne ⊢
  refine DifferOver.append_left ?_ front
  have hcount : (Regroup.ofBytes 5 (r.1 :: r.2)).length =
      (Regroup.ofBytes 5 (r'.1 :: r'.2)).length := by
    rw [Regroup.length_ofBytes (by decide) (by decide), List.length_cons, hhash,
      Regroup.length_ofBytes (by decide) (by decide), List.length_cons, hhash']
  refine CyclicCode.differOver_encode_withChecksum CyclicCode.sound_cashAddr (by decide) _
    Bech32.lt_of_mem_words Bech32.lt_of_mem_words hcount fun hwords => hne ?_
  exact congrArg (front ++ Base32.encode ·) hwords

/-- **Errors in one place are detected.** Two lists of words of any length that have the right
remainder under a label differ over more than eight positions. So what becomes of an accepted text
when eight consecutive characters or fewer are garbled is refused under that label. -/
theorem garbled_is_refused (label : Text) :
    (∀ a b : Bytes, (∀ w ∈ a, w.toNat < 32) → (∀ w ∈ b, w.toNat < 32) → a.length = b.length →
      code.residue (expandLabel label ++ a) = 1 → code.residue (expandLabel label ++ b) = 1 →
        a ≠ b → ∃ first last, (differences a b).head? = some first ∧
          (differences a b).getLast? = some last ∧ first + 8 ≤ last) ∧
    ∀ s t r, decode s label = .ok r → Garbled 8 s t → ∃ e, decode t label = .error e := by
  constructor
  · intro a b ha hb hlen hsum hsum' hne
    exact differOver_of_residue ha hb hlen hsum hsum' hne
  · intro s t r hs hgarbled
    cases ht : decode t label with
    | error e => exact ⟨e, rfl⟩
    | ok r' =>
      have hcase := (decode_eq_ok_iff_of_any.1 ht).1
      exact absurd (differOver_of_decode hs ht hgarbled.length_eq (hgarbled.lower_ne hcase))
        hgarbled.not_differOver

set_option maxRecDepth 1000 in
/-- The address of the sample hash as one of a script. -/
theorem decode_sample :
    decode "ppm2qsznhks23z7629mms6s4cwef74vcwvn0h829pq".toList "bitcoincash".toList =
      .ok (payToScript, sampleHash) := rfl

/-- That address with eight of its characters in reverse. -/
theorem garbled_is_refused_reversed :
    decode "ppm2qsznhks23z7629mms6s4cwef74vcwvn0h829pq".toList "bitcoincash".toList =
      .ok (payToScript, sampleHash) ∧
    ∃ e, decode "ppm2qsznhks23z7629mmfewc4s6s74vcwvn0h829pq".toList "bitcoincash".toList =
      .error e :=
  have hgarbled : Garbled 8 ("ppm2qsznhks23z7629mm".toList ++ "s6s4cwef".toList ++
      "74vcwvn0h829pq".toList) ("ppm2qsznhks23z7629mm".toList ++ "fewc4s6s".toList ++
        "74vcwvn0h829pq".toList) :=
    .mk _ _ (by decide) (by decide) (by decide +kernel) (by decide +kernel)
  ⟨decode_sample, (garbled_is_refused "bitcoincash".toList).2 _ _ _ decode_sample hgarbled⟩

/-! ## Errors in several places -/

/-- An accepted text in small letters and without a label is an address without its label. -/
theorem eq_bodyOf_of_decode {label s : Text} {r : UInt8 × Bytes} (hlow : ∀ c ∈ s, ¬ c.isUpper)
    (hbare : ':' ∉ s) (hs : decode s label = .ok r) :
    r.2.length = 20 ∧ s = bodyOf label r.1 r.2 := by
  obtain ⟨-, -, hhash, hform⟩ := decode_eq_ok_iff_of_any.1 hs
  rw [Text.map_toLower_of_noUpper hlow] at hform
  rcases hform with ⟨-, hform⟩ | hform
  · refine absurd ?_ hbare
    rw [hform]
    simp
  · exact ⟨hhash, hform⟩

/-- **One or two wrong characters are detected, wherever they are.** Two texts without a label that
are accepted under one label differ in at least three positions. -/
theorem three_le_differences {label s t : Text} {r r' : UInt8 × Bytes}
    (hlow : ∀ c ∈ s, ¬ c.isUpper) (hlow' : ∀ c ∈ t, ¬ c.isUpper) (hbare : ':' ∉ s)
    (hbare' : ':' ∉ t) (hs : decode s label = .ok r) (ht : decode t label = .ok r') (hne : s ≠ t) :
    s.length = t.length ∧ 3 ≤ (differences s t).length := by
  obtain ⟨hhash, rfl⟩ := eq_bodyOf_of_decode hlow hbare hs
  obtain ⟨hhash', rfl⟩ := eq_bodyOf_of_decode hlow' hbare' ht
  have hwords : (wordsWithChecksum label r.1 r.2).length = 42 := length_wordsWithChecksum hhash
  have hwords' : (wordsWithChecksum label r'.1 r'.2).length = 42 := length_wordsWithChecksum hhash'
  refine ⟨by rw [length_bodyOf hhash, length_bodyOf hhash'], ?_⟩
  rw [differences_bodyOf]
  refine CyclicCode.three_le_of_residue_eq CyclicCode.sound_cashAddr CyclicCode.separates_cashAddr
    lt_of_mem_wordsWithChecksum lt_of_mem_wordsWithChecksum (hwords.trans hwords'.symm)
    (Nat.le_of_eq hwords) ?_
    ((residue_wordsWithChecksum label ..).trans (residue_wordsWithChecksum label ..).symm)
  intro heq
  exact hne (by rw [bodyOf, heq, bodyOf])

/-- Both kinds of address of one hash. -/
theorem three_le_differences_same_hash :
    decode "qpm2qsznhks23z7629mms6s4cwef74vcwvy22gdx6a".toList "bitcoincash".toList =
      .ok (payToKey, sampleHash) ∧
    decode "ppm2qsznhks23z7629mms6s4cwef74vcwvn0h829pq".toList "bitcoincash".toList =
      .ok (payToScript, sampleHash) ∧
    3 ≤ (differences "qpm2qsznhks23z7629mms6s4cwef74vcwvy22gdx6a".toList
      "ppm2qsznhks23z7629mms6s4cwef74vcwvn0h829pq".toList).length :=
  have hread : decode "qpm2qsznhks23z7629mms6s4cwef74vcwvy22gdx6a".toList
      "bitcoincash".toList = .ok (payToKey, sampleHash) := by decide +kernel
  ⟨hread, decode_sample, (three_le_differences (List.any_eq_false.1 (by decide +kernel))
    (List.any_eq_false.1 (by decide +kernel)) (by decide +kernel) (by decide +kernel) hread
    decode_sample (by decide +kernel)).2⟩

end CoinAddress.CashAddr

import CoinAddress.CashAddr
import CoinAddress.Proofs.Bech32Text

/-!
# Which texts are addresses of Bitcoin Cash

A text is accepted under a label just when it is not in both letter cases and its small letters
are the address that is written for a version and a hash, with or without the label:
`decode_eq_ok_iff`. The version's three lowest bits give the length of the hash, so only versions
without them are read.
-/

namespace CoinAddress.CashAddr

open Text (mixedCase)

/-- The words of a version and a hash with their checksum. -/
def wordsWithChecksum (label : Text) (version : UInt8) (hash : Bytes) : Bytes :=
  code.withChecksum 1 (expandLabel label) (Regroup.ofBytes 5 (version :: hash))

/-- An address without its label. -/
def bodyOf (label : Text) (version : UInt8) (hash : Bytes) : Text :=
  Base32.encode (wordsWithChecksum label version hash)

theorem lt_of_mem_wordsWithChecksum {label : Text} {version : UInt8} {hash : Bytes} :
    ∀ w ∈ wordsWithChecksum label version hash, w.toNat < 32 :=
  CyclicCode.lt_of_mem_withChecksum Bech32.lt_of_mem_words

theorem residue_wordsWithChecksum (label : Text) (version : UInt8) (hash : Bytes) :
    code.residue (expandLabel label ++ wordsWithChecksum label version hash) = 1 :=
  CyclicCode.residue_withChecksum CyclicCode.sound_cashAddr (by decide) ..

theorem encode_eq_ok_iff {label : Text} {version : UInt8} {hash : Bytes} {s : Text} :
    encode label version hash = .ok s ↔
      hash.length = 20 ∧ s = label ++ ':' :: bodyOf label version hash := by
  rw [encode]
  by_cases hlen : hash.length = hashLength
  · rw [if_neg (not_not.2 hlen), Except.ok.injEq]
    exact ⟨fun h => ⟨hlen, h.symm⟩, fun h => h.2.symm⟩
  · rw [if_pos hlen]
    simp only [reduceCtorEq, false_iff, not_and]
    exact fun h => absurd h hlen

theorem wordsOf_eq_ok_iff {s : Text} {ws : Bytes} :
    wordsOf s = .ok ws ↔ (∀ w ∈ ws, w.toNat < 32) ∧ s = Base32.encode ws := by
  induction s generalizing ws with
  | nil =>
    cases ws with
    | nil => simp [wordsOf, Base32.encode]
    | cons w ws => simp [wordsOf, Base32.encode]
  | cons c s ih =>
    rw [wordsOf]
    constructor
    · intro h
      split at h
      · cases h
      · next w hw =>
        obtain ⟨us, hus, rfl⟩ := map_eq_ok_iff.1 h
        obtain ⟨hlt, rfl⟩ := ih.1 hus
        obtain ⟨hw32, rfl⟩ := Base32.value?_eq_some_iff.1 hw
        exact ⟨List.forall_mem_cons.2 ⟨hw32, hlt⟩, rfl⟩
    · rintro ⟨hlt, htext⟩
      cases ws with
      | nil => cases htext
      | cons w ws =>
        obtain ⟨hw32, hlt'⟩ := List.forall_mem_cons.1 hlt
        rw [Base32.encode_cons, List.cons.injEq] at htext
        rw [htext.1, Base32.value?_digit hw32, ih.2 ⟨hlt', htext.2⟩]
        rfl

/-- The words of a version and a hash are read back, unless the version asks for a hash of another
length. -/
theorem decodeWords_wordsWithChecksum (label : Text) (version : UInt8) (hash : Bytes) :
    decodeWords label (wordsWithChecksum label version hash) =
      if version &&& 0x07 ≠ 0 ∨ hash.length ≠ hashLength then
        .error (.invalidEncoding (.cashSize version hash.length))
      else .ok (version, hash) := by
  have hsum := residue_wordsWithChecksum label version hash
  have htotal : (wordsWithChecksum label version hash).length =
      (Regroup.ofBytes 5 (version :: hash)).length + code.checksumWords :=
    CyclicCode.length_withChecksum ..
  have htake : (wordsWithChecksum label version hash).take
      ((wordsWithChecksum label version hash).length - code.checksumWords) =
        Regroup.ofBytes 5 (version :: hash) := CyclicCode.take_withChecksum ..
  have hread := (Regroup.regroup_eq_ok_iff_ofBytes (show 0 < 5 by decide) (by decide)).2
    (rfl : Regroup.ofBytes 5 (version :: hash) = Regroup.ofBytes 5 (version :: hash))
  have hpos : 0 < (Regroup.ofBytes 5 (version :: hash)).length := by
    rw [Regroup.length_ofBytes (by decide) (by decide), List.length_cons]
    omega
  rw [decodeWords, if_neg (by omega), if_neg (not_not.2 hsum), htake, hread]
  rfl

/-- Words are read as a version and a hash just when they are written so. -/
theorem decodeWords_eq_ok_iff {label : Text} {words : Bytes} (hwords : ∀ w ∈ words, w.toNat < 32)
    {version : UInt8} {hash : Bytes} :
    decodeWords label words = .ok (version, hash) ↔ version &&& 0x07 = 0 ∧ hash.length = 20 ∧
      words = wordsWithChecksum label version hash := by
  constructor
  · intro h
    obtain ⟨hlong, h⟩ := refuse_eq_ok_iff.1 h
    obtain ⟨hsum, h⟩ := refuse_eq_ok_iff.1 h
    obtain ⟨data, hdata, h⟩ := bind_eq_ok_iff.1 h
    have htake := (Regroup.regroup_eq_ok_iff_ofBytes (by decide) (by decide)).1
      (mapError_eq_ok_iff.1 hdata)
    cases data with
    | nil => cases h
    | cons v rest =>
      obtain ⟨hcheck, h⟩ := refuse_eq_ok_iff.1 h
      cases h
      rw [not_or, not_not, not_not] at hcheck
      rw [not_not, CyclicCode.residue_eq_iff_withChecksum CyclicCode.sound_cashAddr (by decide)
        hwords (by omega), htake] at hsum
      exact ⟨hcheck.1, hcheck.2, hsum⟩
  · rintro ⟨hversion, hlen, rfl⟩
    rw [decodeWords_wordsWithChecksum, if_neg]
    rintro (hne | hne)
    · exact hne hversion
    · exact hne hlen

theorem colon_not_mem_bodyOf (label : Text) (version : UInt8) (hash : Bytes) :
    ':' ∉ bodyOf label version hash := fun h => by
  have := Base32.of_mem_encode lt_of_mem_wordsWithChecksum h
  revert this
  decide

theorem noUpper_bodyOf (label : Text) (version : UInt8) (hash : Bytes) :
    ∀ c ∈ bodyOf label version hash, ¬ c.isUpper :=
  fun _ hc => Base32.noUpper_digits _ (Base32.of_mem_encode lt_of_mem_wordsWithChecksum hc)

/-- Under a label in small letters, an address is in small letters. -/
theorem noUpper_address {label : Text} (hlow : ∀ c ∈ label, ¬ c.isUpper) (version : UInt8)
    (hash : Bytes) : ∀ c ∈ label ++ ':' :: bodyOf label version hash, ¬ c.isUpper := by
  intro c hc
  rcases List.mem_append.1 hc with hc | hc
  · exact hlow c hc
  · rcases List.mem_cons.1 hc with rfl | hc
    · decide
    · exact noUpper_bodyOf label version hash c hc

/-- A text is an address with its label or without it. A label with a colon in it is not found
again, so there the label has to be left out. -/
theorem decode_eq_ok_iff_of_any {s label : Text} {version : UInt8} {hash : Bytes} :
    decode s label = .ok (version, hash) ↔ mixedCase s = false ∧
      version &&& 0x07 = 0 ∧ hash.length = 20 ∧
        (':' ∉ label ∧ s.map Char.toLower = label ++ ':' :: bodyOf label version hash ∨
        s.map Char.toLower = bodyOf label version hash) := by
  have hbody : ∀ body : Text, (do let words ← wordsOf body; decodeWords label words) =
      Except.ok (version, hash) ↔ version &&& 0x07 = 0 ∧ hash.length = 20 ∧
        body = bodyOf label version hash := by
    intro body
    cases hw : wordsOf body with
    | error e =>
      simp only [bind, Except.bind, reduceCtorEq, false_iff, not_and]
      rintro - - rfl
      have hok : wordsOf (bodyOf label version hash) = .ok (wordsWithChecksum label version hash) :=
        wordsOf_eq_ok_iff.2 ⟨lt_of_mem_wordsWithChecksum, rfl⟩
      rw [hok] at hw
      cases hw
    | ok words =>
      obtain ⟨hlt, rfl⟩ := wordsOf_eq_ok_iff.1 hw
      simp only [bind, Except.bind, decodeWords_eq_ok_iff hlt]
      refine and_congr_right fun _ => and_congr_right fun _ => ?_
      exact ⟨fun h => h ▸ rfl, Base32.encode_injective hlt lt_of_mem_wordsWithChecksum⟩
  rw [decode]
  split
  · next hmixed => simp [show mixedCase s = true from hmixed]
  · next hmixed =>
    rw [Bool.not_eq_true] at hmixed
    rw [show mixedCase s = false from hmixed]
    simp only [true_and]
    cases hcut : Text.cutAtFirst ':' (s.map Char.toLower) with
    | none =>
      -- without a colon the whole text is the body
      have hnone := Text.cutAtFirst_eq_none_iff.1 hcut
      have hne : s.map Char.toLower ≠ label ++ ':' :: bodyOf label version hash := by
        intro h
        rw [h] at hnone
        simp at hnone
      simp only [Option.getD_none, ne_eq, not_true_eq_false, if_false, hbody, hne, and_false,
        false_or]
    | some sides =>
      obtain ⟨found, body⟩ := sides
      obtain ⟨htext, hfound⟩ := Text.cutAtFirst_eq_some_iff.1 hcut
      -- with a colon it is no body, whose characters are digits
      have hne : s.map Char.toLower ≠ bodyOf label version hash := by
        intro h
        refine colon_not_mem_bodyOf label version hash ?_
        rw [← h, htext]
        simp
      simp only [Option.getD_some, hne, or_false]
      by_cases hlabel : found = label
      · subst hlabel
        rw [if_neg (not_not.2 rfl), hbody, htext]
        simp [hfound]
      · rw [if_pos hlabel]
        simp only [reduceCtorEq, false_iff, not_and]
        intro _ _ hcolon h
        have hcut' := Text.cutAtFirst_eq_some_iff.2 ⟨h, hcolon⟩
        rw [hcut, Option.some.injEq, Prod.mk.injEq] at hcut'
        exact hlabel hcut'.1

/-- **Each version and hash has one address,** up to leaving the label out and to writing it all
in capitals. -/
theorem decode_eq_ok_iff {s label : Text} (hcolon : ':' ∉ label) {version : UInt8}
    {hash : Bytes} : decode s label = .ok (version, hash) ↔ mixedCase s = false ∧
      version &&& 0x07 = 0 ∧ hash.length = 20 ∧
        (s.map Char.toLower = label ++ ':' :: bodyOf label version hash ∨
        s.map Char.toLower = bodyOf label version hash) := by
  rw [decode_eq_ok_iff_of_any]
  simp only [hcolon, not_false_eq_true, true_and]

/-! ## The form of an address without its label -/

theorem length_bodyOf {label : Text} {version : UInt8} {hash : Bytes} (h : hash.length = 20) :
    (bodyOf label version hash).length = 42 := by
  rw [bodyOf, Base32.length_encode, wordsWithChecksum, CyclicCode.length_withChecksum,
    Regroup.length_ofBytes (by decide) (by decide), List.length_cons, h]
  rfl

theorem mod_eight_of_version {version : UInt8} (h : version &&& 0x07 = 0) :
    version.toNat % 8 = 0 := by
  rw [show 8 = 2 ^ 3 from rfl, ← Nat.and_two_pow_sub_one_eq_mod]
  exact congrArg UInt8.toNat h

/-- The second word starts with the three bits of the version that give the hash its length. -/
theorem ofBytes_version {version : UInt8} (h : version &&& 0x07 = 0) (b : UInt8) (bs : Bytes) :
    ∃ w₁ w₂ ws, Regroup.ofBytes 5 (version :: b :: bs) = w₁ :: w₂ :: ws ∧ w₂.toNat < 4 := by
  obtain ⟨hlt, k, -, hbits⟩ := Regroup.ofBytes_spec (show 0 < 5 by decide) (by decide)
    (version :: b :: bs)
  have hlen := Regroup.length_ofBytes (show 0 < 5 by decide) (by decide) (version :: b :: bs)
  generalize Regroup.ofBytes 5 (version :: b :: bs) = words at *
  match words with
  | [] | [_] =>
    simp only [List.length_cons, List.length_nil] at hlen
    omega
  | w₁ :: w₂ :: ws =>
    refine ⟨w₁, w₂, ws, rfl, ?_⟩
    -- bits 5 to 7 of the stream are the low bits of the version and the high bits of the word
    have hzero : Regroup.lowBits 3 version.toNat = Regroup.lowBits 3 0 := by
      have hmod : version.toNat % 2 ^ 3 = 0 := mod_eight_of_version h
      rw [← Regroup.lowBits_mod (Nat.le_refl 3), hmod]
    simp only [Regroup.bits_cons, List.append_assoc] at hbits
    rw [show 8 = 5 + 3 from rfl, Regroup.lowBits_add, List.append_assoc] at hbits
    have htail := (List.append_inj hbits (by simp)).2
    rw [hzero, show 5 = 3 + 2 from rfl, Regroup.lowBits_add 3 2, List.append_assoc] at htail
    have htop := (List.append_inj htail (by simp)).1
    have hw : w₂.toNat < 2 ^ 5 := hlt w₂ (by simp)
    have hshift : w₂.toNat >>> 2 < 2 ^ 3 := by
      rw [Nat.shiftRight_eq_div_pow, Nat.div_lt_iff_lt_mul (by decide)]
      exact hw
    have hnone := Regroup.eq_of_lowBits_eq (by decide) hshift htop
    rw [Nat.shiftRight_eq_div_pow] at hnone
    omega

end CoinAddress.CashAddr

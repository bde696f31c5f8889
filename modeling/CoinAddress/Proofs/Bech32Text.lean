import CoinAddress.Family.Codec
import CoinAddress.Proofs.ChecksumCode
import CoinAddress.Proofs.LetterCase
import CoinAddress.Proofs.Outcome

/-!
# Which texts are Bech32

A text is accepted just when it is not in both letter cases and its small letters are a text that
is written: `decode_eq_ok_iff` for bytes and `decodeWitness_eq_ok_iff` for witness programs. A
human-readable part with capital letters accepts nothing.
-/

namespace CoinAddress

/-! ## Characters and words -/

namespace Base32

/-- The values are read from their digits only. -/
theorem value?_eq_some_iff {c : Char} {w : UInt8} :
    value? c = some w ↔ w.toNat < 32 ∧ digit w = c := by
  constructor
  · intro h
    obtain ⟨i, hi, rfl⟩ := Option.map_eq_some_iff.1 h
    obtain ⟨hlt, hget, -⟩ := List.idxOf?_eq_some_iff.1 hi
    have hlen : digits.length = 32 := by decide
    have hnat : (UInt8.ofNat i).toNat = i := UInt8.toNat_ofNat_of_lt (by rw [UInt8.size]; omega)
    refine ⟨by omega, ?_⟩
    rw [digit, hnat, List.getD_eq_getElem?_getD, List.getElem?_eq_getElem hlt, Option.getD_some,
      hget]
  · rintro ⟨hw, rfl⟩
    exact value?_digit hw

theorem encode_cons (w : UInt8) (ws : Bytes) : encode (w :: ws) = digit w :: encode ws := rfl

@[simp] theorem length_encode (ws : Bytes) : (encode ws).length = ws.length := List.length_map _

theorem encode_injective {us ws : Bytes} (hus : ∀ w ∈ us, w.toNat < 32)
    (hws : ∀ w ∈ ws, w.toNat < 32) (h : encode us = encode ws) : us = ws :=
  Text.eq_of_map_eq (fun w hw => value?_digit (hus w hw)) (fun w hw => value?_digit (hws w hw)) h

theorem printable_digit {w : UInt8} (hw : w.toNat < 32) :
    33 ≤ (digit w).toNat ∧ (digit w).toNat ≤ 126 := by
  have hall : ∀ e ∈ List.range 32,
      33 ≤ (digit (UInt8.ofNat e)).toNat ∧ (digit (UInt8.ofNat e)).toNat ≤ 126 := by decide
  simpa using hall w.toNat (List.mem_range.2 hw)

/-- The characters in use are small letters and digits other than one. -/
theorem of_mem_encode {ws : Bytes} (hws : ∀ w ∈ ws, w.toNat < 32) {c : Char}
    (h : c ∈ encode ws) : c ∈ digits := by
  obtain ⟨w, hw, rfl⟩ := List.mem_map.1 h
  have hlt : w.toNat < digits.length := hws w hw
  rw [digit, List.getD_eq_getElem?_getD, List.getElem?_eq_getElem hlt, Option.getD_some]
  exact List.getElem_mem hlt

theorem noUpper_digits : ∀ c ∈ digits, ¬ c.isUpper := by
  have hall : digits.all fun c => !c.isUpper := by decide
  simpa using hall

end Base32

namespace Bech32

open Text (mixedCase)

/-! ## The letter case of a text -/

/-- The case after some characters; none if two of them contradict each other. -/
def LetterCase.seeAll (k : LetterCase) (s : Text) : Option LetterCase := s.foldlM see k

theorem LetterCase.seeAll_append (k : LetterCase) (s t : Text) :
    k.seeAll (s ++ t) = (k.seeAll s).bind fun k' => k'.seeAll t := List.foldlM_append

theorem LetterCase.seeAll_cons (k : LetterCase) (c : Char) (s : Text) :
    k.seeAll (c :: s) = (k.see c).bind fun k' => k'.seeAll s := List.foldlM_cons

/-- There is no contradiction just when the letters, with the case so far, are of one case. -/
theorem LetterCase.isSome_seeAll (k : LetterCase) (s : Text) :
    (k.seeAll s).isSome ↔
      ¬ ((k = .lower ∨ s.any Char.isLower) ∧ (k = .upper ∨ s.any Char.isUpper)) := by
  induction s generalizing k with
  | nil => cases k <;> simp [seeAll]
  | cons c s ih =>
    rw [seeAll_cons, see]
    by_cases hl : c.isLower
    · have hu : ¬ c.isUpper := fun hu => Text.not_isLower_of_isUpper hu hl
      cases k <;> simp [hl, hu, ih]
    · by_cases hu : c.isUpper
      · cases k <;> simp [hl, hu, ih]
      · cases k <;> simp [hl, hu, ih]

/-- A text can be seen to its end unless it has letters of both cases. -/
theorem LetterCase.isSome_seeAll_undecided (s : Text) :
    (LetterCase.undecided.seeAll s).isSome ↔ mixedCase s = false := by
  rw [isSome_seeAll, mixedCase]
  cases s.any Char.isLower <;> simp

/-! ## The two parts -/

/-- A prefix has printable characters and letters of one case. -/
theorem hrpCaseFrom_eq_ok_iff {k k' : LetterCase} {s : Text} :
    hrpCaseFrom k s = .ok k' ↔
      (∀ c ∈ s, 33 ≤ c.toNat ∧ c.toNat ≤ 126) ∧ k.seeAll s = some k' := by
  induction s generalizing k with
  | nil => simp [hrpCaseFrom, LetterCase.seeAll]
  | cons c s ih =>
    rw [hrpCaseFrom, LetterCase.seeAll_cons]
    by_cases hc : 33 ≤ c.toNat ∧ c.toNat ≤ 126
    · cases hk : k.see c with
      | none => simp [hc]
      | some k₁ =>
        simp only [hc, and_self, if_true, ih, Option.bind_some, List.forall_mem_cons, true_and]
    · simp [hc]

/-- Words are read from their digits, in the letter case that was seen in front of them. -/
theorem wordsFrom_eq_ok_iff {k : LetterCase} {s : Text} {ws : Bytes} :
    wordsFrom k s = .ok ws ↔
      (k.seeAll s).isSome ∧ (∀ w ∈ ws, w.toNat < 32) ∧ s.map Char.toLower = Base32.encode ws := by
  induction s generalizing k ws with
  | nil =>
    cases ws with
    | nil => simp [wordsFrom, LetterCase.seeAll, Base32.encode]
    | cons w ws => simp [wordsFrom, Base32.encode]
  | cons c s ih =>
    rw [wordsFrom, LetterCase.seeAll_cons]
    cases hv : Base32.value? c.toLower with
    | none =>
      -- no word has this character, whatever the case and whether or not it is of ASCII
      have hno : ∀ ws : Bytes, (∀ w ∈ ws, w.toNat < 32) →
          (c :: s).map Char.toLower ≠ Base32.encode ws := by
        intro ws hws h
        cases ws with
        | nil => cases h
        | cons w ws =>
          rw [List.map_cons, Base32.encode_cons, List.cons.injEq] at h
          rw [h.1, Base32.value?_digit (hws w (by simp))] at hv
          cases hv
      have herr : ∀ e : Except Fault Bytes, e ≠ .ok ws → (e = .ok ws ↔
          ((k.see c).bind fun k' => k'.seeAll s).isSome ∧ (∀ w ∈ ws, w.toNat < 32) ∧
            (c :: s).map Char.toLower = Base32.encode ws) :=
        fun e he => ⟨fun h => absurd h he, fun h => absurd h.2.2 (hno ws h.2.1)⟩
      refine herr _ ?_
      split
      · simp
      · split <;> simp
    | some w =>
      obtain ⟨hw, hdigit⟩ := Base32.value?_eq_some_iff.1 hv
      have hascii : Text.isAscii c := by
        have hcode := Base32.printable_digit hw
        rw [hdigit, Text.printable_toLower_iff] at hcode
        rw [Text.isAscii, decide_eq_true_eq]
        omega
      rw [if_neg (by simp [hascii])]
      cases hk : k.see c with
      | none => simp
      | some k₁ =>
        simp only [Option.bind_some]
        constructor
        · intro h
          obtain ⟨vs, hs, rfl⟩ := map_eq_ok_iff.1 h
          obtain ⟨hcase, hvs, htext⟩ := ih.1 hs
          refine ⟨hcase, List.forall_mem_cons.2 ⟨hw, hvs⟩, ?_⟩
          rw [List.map_cons, htext, ← hdigit, Base32.encode_cons]
        · rintro ⟨hcase, hws, htext⟩
          cases ws with
          | nil => cases htext
          | cons v vs =>
            rw [List.map_cons, Base32.encode_cons, List.cons.injEq] at htext
            obtain ⟨hv', hvs⟩ := List.forall_mem_cons.1 hws
            rw [← hdigit] at htext
            have hword := Base32.value?_digit hw
            rw [htext.1, Base32.value?_digit hv'] at hword
            rw [ih.2 ⟨hcase, hvs, htext.2⟩, Option.some.inj hword]
            rfl

/-! ## The whole text -/

/-- A human-readable part that a text in small letters can have. -/
structure Usable (hrp : Text) : Prop where
  ne_nil : hrp ≠ []
  length_le : hrp.length ≤ 83
  printable : ∀ c ∈ hrp, 33 ≤ c.toNat ∧ c.toNat ≤ 126
  noUpper : ∀ c ∈ hrp, ¬ c.isUpper

/-- A prefix has from 1 to 83 characters, and the case of its letters is known at its end. -/
theorem hrpCase_eq_ok_iff {hrp : Text} {k : LetterCase} :
    hrpCase hrp = .ok k ↔ hrp ≠ [] ∧ hrp.length ≤ 83 ∧
      (∀ c ∈ hrp, 33 ≤ c.toNat ∧ c.toNat ≤ 126) ∧ LetterCase.undecided.seeAll hrp = some k := by
  rw [hrpCase]
  split
  · next h =>
    constructor
    · intro hk
      cases hk
    · rintro ⟨hne, hlen, hall, -⟩
      rw [Text.byteSize_of_printable hall] at h
      rcases h with h | h
      · exact absurd h hne
      · omega
  · next h =>
    rw [hrpCaseFrom_eq_ok_iff]
    constructor
    · rintro ⟨hall, hk⟩
      rw [Text.byteSize_of_printable hall] at h
      exact ⟨fun hnil => h (.inl hnil), by omega, hall, hk⟩
    · rintro ⟨-, -, hall, hk⟩
      exact ⟨hall, hk⟩

/-- The text of words under a human-readable part in small letters. -/
def textOf (hrp : Text) (words : Bytes) : Text :=
  hrp ++ '1' :: Base32.encode (code.withChecksum Variant.bech32.residue (expandHrp hrp) words)

theorem textOf_eq (hrp : Text) (words : Bytes) : textOf hrp words =
    (hrp ++ ['1']) ++
      Base32.encode (code.withChecksum Variant.bech32.residue (expandHrp hrp) words) := by
  rw [textOf, List.append_assoc]
  rfl

/-- A prefix in small letters that can be used is written as it is. -/
theorem print_eq_ok_iff {hrp : Text} (hlow : ∀ c ∈ hrp, ¬ c.isUpper) {words : Bytes} {t : Text} :
    print hrp words = .ok t ↔ Usable hrp ∧ t = textOf hrp words := by
  rw [print]
  cases hk : hrpCase hrp with
  | error e =>
    simp only [reduceCtorEq, false_iff, not_and]
    intro husable
    have hsome := (LetterCase.isSome_seeAll_undecided hrp).2 (Text.mixedCase_of_noUpper hlow)
    obtain ⟨k, hk'⟩ := Option.isSome_iff_exists.1 hsome
    rw [hrpCase_eq_ok_iff.2 ⟨husable.ne_nil, husable.length_le, husable.printable, hk'⟩] at hk
    cases hk
  | ok k =>
    obtain ⟨hne, hlen, hall, -⟩ := hrpCase_eq_ok_iff.1 hk
    simp only [Text.map_toLower_of_noUpper hlow, Except.ok.injEq, textOf]
    exact ⟨fun h => ⟨⟨hne, hlen, hall, hlow⟩, h.symm⟩, fun h => h.2.symm⟩

theorem one_not_mem_encode {ws : Bytes} (hws : ∀ w ∈ ws, w.toNat < 32) :
    '1' ∉ Base32.encode ws := fun h => by
  have := Base32.of_mem_encode hws h
  revert this
  decide

theorem variantOf?_eq_bech32_iff {r : Nat} : variantOf? r = some .bech32 ↔ r = 1 := by
  rw [variantOf?]
  split
  · next h => simp [h, Variant.residue]
  · next h => split <;> simp_all [Variant.residue]

/-- What the checks of a text come to, one by one. -/
theorem parse_eq_ok_iff_checks {s : Text} {parts : Parts} :
    parse s = .ok parts ↔ ∃ raw data k all variant, s = raw ++ '1' :: data ∧ '1' ∉ data ∧
      hrpCase raw = .ok k ∧ wordsFrom k data = .ok all ∧ 6 ≤ all.length ∧
      variantOf? (code.residue (expandHrp (raw.map Char.toLower) ++ all)) = some variant ∧
      parts = ⟨raw.map Char.toLower, all.take (all.length - 6), variant⟩ := by
  constructor
  · intro h
    rw [parse] at h
    split at h
    · next sides hcut =>
      obtain ⟨⟨raw, data⟩, hsides, hrest⟩ := bind_eq_ok_iff.1 h
      cases hsides
      obtain ⟨k, hk, hrest⟩ := bind_eq_ok_iff.1 hrest
      obtain ⟨all, hws, hrest⟩ := bind_eq_ok_iff.1 hrest
      obtain ⟨hlong, hrest⟩ := refuse_eq_ok_iff.1 hrest
      simp only at hrest
      split at hrest
      · cases hrest
      · next variant hvariant =>
        obtain ⟨hs, hdata⟩ := Text.cutAtLast_eq_some_iff.1 hcut
        exact ⟨raw, data, k, all, variant, hs, hdata, hk, hws, Nat.le_of_not_lt hlong, hvariant,
          (Except.ok.inj hrest).symm⟩
    · obtain ⟨sides, hsides, -⟩ := bind_eq_ok_iff.1 h
      cases hsides
  · rintro ⟨raw, data, k, all, variant, hs, hdata, hk, hws, hlong, hvariant, rfl⟩
    have hcut := Text.cutAtLast_eq_some_iff.2 ⟨hs, hdata⟩
    have hlong' : ¬ all.length < code.checksumWords := Nat.not_lt.2 hlong
    simp only [parse, hcut, hk, hws, bind, Except.bind, hlong', if_false, hvariant]
    rfl

/-- The separator is in no letter case, so the case is that of both sides together. -/
theorem seeAll_sides {raw data : Text} {k : LetterCase}
    (hk : LetterCase.undecided.seeAll raw = some k) :
    (k.seeAll data).isSome ↔ mixedCase (raw ++ '1' :: data) = false := by
  rw [← LetterCase.isSome_seeAll_undecided, LetterCase.seeAll_append, hk, Option.bind_some,
    LetterCase.seeAll_cons, show k.see '1' = some k by cases k <;> decide, Option.bind_some]

/-- **A text is read just when it is in one letter case and its small letters are what is
written.** -/
theorem parse_eq_ok_iff {s hrp : Text} {words : Bytes} :
    parse s = .ok ⟨hrp, words, .bech32⟩ ↔ mixedCase s = false ∧ Usable hrp ∧
      (∀ w ∈ words, w.toNat < 32) ∧ s.map Char.toLower = textOf hrp words := by
  rw [parse_eq_ok_iff_checks]
  constructor
  · -- what was read: the words end with their checksum, so the text is the one written for them
    rintro ⟨raw, data, k, all, variant, rfl, -, hk, hws, hlong, hvariant, hparts⟩
    cases hparts
    obtain ⟨hne, hlen, hall, hsee⟩ := hrpCase_eq_ok_iff.1 hk
    obtain ⟨hcase, hlt, htext⟩ := wordsFrom_eq_ok_iff.1 hws
    refine ⟨(seeAll_sides hsee).1 hcase, ⟨by simpa using hne, by simpa using hlen, ?_,
      Text.noUpper_map_toLower raw⟩, fun w hw => hlt w (List.mem_of_mem_take hw), ?_⟩
    · intro c hc
      obtain ⟨d, hd, rfl⟩ := List.mem_map.1 hc
      exact Text.printable_toLower_iff.2 (hall d hd)
    · have hsum := variantOf?_eq_bech32_iff.1 hvariant
      rw [CyclicCode.residue_eq_iff_withChecksum CyclicCode.sound_bech32 (by decide) hlt hlong]
        at hsum
      rw [List.map_append, List.map_cons, htext, textOf]
      exact congrArg (fun ws => raw.map Char.toLower ++ '1' :: Base32.encode ws) hsum
  · -- what was written: the separator is no letter, so it stands in the text as it is
    rintro ⟨hcase, husable, hwords, htext⟩
    obtain ⟨raw, rest, rfl, hraw, hrest⟩ := List.map_eq_append_iff.1 htext
    obtain ⟨c, data, rfl, hc, hdata⟩ := List.map_eq_cons_iff.1 hrest
    rw [Text.toLower_eq_iff_of_not_isAlpha (by decide)] at hc
    subst hc
    have hresidue := CyclicCode.residue_withChecksum CyclicCode.sound_bech32
      (show Variant.bech32.residue < 2 ^ code.residueBits by decide) (expandHrp hrp) words
    have htake := code.take_withChecksum Variant.bech32.residue (expandHrp hrp) words
    have hlen := code.length_withChecksum Variant.bech32.residue (expandHrp hrp) words
    have hlt : ∀ w ∈ code.withChecksum Variant.bech32.residue (expandHrp hrp) words,
        w.toNat < 32 := CyclicCode.lt_of_mem_withChecksum hwords
    generalize code.withChecksum Variant.bech32.residue (expandHrp hrp) words = all at *
    have hone : '1' ∉ data := fun h => one_not_mem_encode hlt <| by
      rw [← hdata]
      exact List.mem_map.2 ⟨'1', h, by decide⟩
    have hraw_case : mixedCase raw = false := by
      have h := (LetterCase.isSome_seeAll_undecided _).2 hcase
      rw [LetterCase.seeAll_append] at h
      exact (LetterCase.isSome_seeAll_undecided raw).1 (Option.isSome_of_isSome_bind h)
    obtain ⟨k, hk⟩ := Option.isSome_iff_exists.1
      ((LetterCase.isSome_seeAll_undecided raw).2 hraw_case)
    have hprintable : ∀ c ∈ raw, 33 ≤ c.toNat ∧ c.toNat ≤ 126 := fun c hc =>
      Text.printable_toLower_iff.1
        (husable.printable _ (hraw ▸ List.mem_map.2 ⟨c, hc, rfl⟩))
    refine ⟨raw, data, k, all, .bech32, rfl, hone, ?_, ?_, ?_, ?_, ?_⟩
    · refine hrpCase_eq_ok_iff.2 ⟨?_, ?_, hprintable, hk⟩
      · rintro rfl
        exact husable.ne_nil hraw.symm
      · rw [← List.length_map (f := Char.toLower), hraw]
        exact husable.length_le
    · exact wordsFrom_eq_ok_iff.2 ⟨(seeAll_sides hk).2 hcase, hlt, hdata⟩
    · rw [hlen]
      exact Nat.le_add_left ..
    · rw [hraw, variantOf?_eq_bech32_iff]
      exact hresidue
    · rw [hraw]
      exact congrArg (Parts.mk hrp · .bech32) htake.symm

/-! ## Bytes under a human-readable part -/

theorem decodeWords_eq_ok_iff {s hrp : Text} {words : Bytes} :
    decodeWords s hrp = .ok words ↔ parse s = .ok ⟨hrp, words, .bech32⟩ := by
  rw [decodeWords, bind_eq_ok_iff]
  constructor
  · rintro ⟨⟨found, ws, variant⟩, hparts, h⟩
    obtain ⟨hhrp, h⟩ := refuse_eq_ok_iff.1 h
    obtain ⟨hvariant, h⟩ := refuse_eq_ok_iff.1 h
    cases h
    obtain rfl : found = hrp := not_not.1 hhrp
    obtain rfl : variant = .bech32 := not_not.1 hvariant
    exact mapError_eq_ok_iff.1 hparts
  · intro h
    exact ⟨_, mapError_eq_ok_iff.2 h, by simp⟩

/-- Bytes are read from their own words only. -/
theorem bytesOfWords_eq_ok_iff {words bs : Bytes} :
    bytesOfWords words = .ok bs ↔ words = Regroup.ofBytes 5 bs := by
  rw [← Regroup.regroup_eq_ok_iff_ofBytes (by decide) (by decide), bytesOfWords]
  cases Regroup.regroup 5 8 false words <;> simp

theorem lt_of_mem_words {payload : Bytes} : ∀ w ∈ Regroup.ofBytes 5 payload, w.toNat < 32 :=
  fun _ => Regroup.lt_of_mem_ofBytes (by decide) (by decide)

/-- Reading bytes is reading their words. -/
theorem decode_eq_ok_iff_parse {s hrp : Text} {payload : Bytes} :
    decode s hrp = .ok payload ↔ parse s = .ok ⟨hrp, Regroup.ofBytes 5 payload, .bech32⟩ := by
  rw [← decodeWords_eq_ok_iff]
  simp only [decode, bind_eq_ok_iff, mapError_eq_ok_iff, bytesOfWords_eq_ok_iff, exists_eq_right]

/-- Reading a witness program is reading its words behind the version word, which is zero, under
the first of the two checksums. -/
theorem decodeWitness_eq_ok_iff_parse {s hrp : Text} {program : Bytes} :
    decodeWitness s hrp = .ok program ↔ (program.length = 20 ∨ program.length = 32) ∧
      parse s = .ok ⟨hrp, 0 :: Regroup.ofBytes 5 program, .bech32⟩ := by
  rw [← decodeWords_eq_ok_iff, decodeWitness, bind_eq_ok_iff]
  constructor
  · rintro ⟨words, hs, h⟩
    cases words with
    | nil => cases h
    | cons version words =>
      obtain ⟨hversion, h⟩ := refuse_eq_ok_iff.1 h
      obtain ⟨bs, hbs, h⟩ := bind_eq_ok_iff.1 h
      obtain ⟨hlen, h⟩ := guard_eq_ok_iff.1 h
      cases h
      rw [bytesOfWords_eq_ok_iff.1 (mapError_eq_ok_iff.1 hbs), not_not.1 hversion] at hs
      exact ⟨hlen, hs⟩
  · rintro ⟨hlen, hs⟩
    refine ⟨_, hs, refuse_eq_ok_iff.2 ⟨by simp, bind_eq_ok_iff.2 ⟨program, ?_, ?_⟩⟩⟩
    · exact mapError_eq_ok_iff.2 (bytesOfWords_eq_ok_iff.2 rfl)
    · exact guard_eq_ok_iff.2 ⟨hlen, rfl⟩

/-- **Bytes under a human-readable part have one text,** up to writing it all in capitals. -/
theorem decode_eq_ok_iff {s hrp : Text} {payload : Bytes} :
    decode s hrp = .ok payload ↔ mixedCase s = false ∧ Usable hrp ∧
      s.map Char.toLower = textOf hrp (Regroup.ofBytes 5 payload) := by
  rw [decode_eq_ok_iff_parse, parse_eq_ok_iff]
  exact ⟨fun ⟨hcase, husable, _, htext⟩ => ⟨hcase, husable, htext⟩,
    fun ⟨hcase, husable, htext⟩ => ⟨hcase, husable, lt_of_mem_words, htext⟩⟩

theorem lt_of_mem_witnessWords {program : Bytes} :
    ∀ w ∈ 0 :: Regroup.ofBytes 5 program, w.toNat < 32 :=
  List.forall_mem_cons.2 ⟨by decide, lt_of_mem_words⟩

/-- **A witness program has one text,** up to writing it all in capitals. -/
theorem decodeWitness_eq_ok_iff {s hrp : Text} {program : Bytes} :
    decodeWitness s hrp = .ok program ↔ (program.length = 20 ∨ program.length = 32) ∧
      mixedCase s = false ∧ Usable hrp ∧
      s.map Char.toLower = textOf hrp (0 :: Regroup.ofBytes 5 program) := by
  rw [decodeWitness_eq_ok_iff_parse, parse_eq_ok_iff]
  exact ⟨fun ⟨hlen, hcase, husable, _, htext⟩ => ⟨hlen, hcase, husable, htext⟩,
    fun ⟨hlen, hcase, husable, htext⟩ =>
      ⟨hlen, hcase, husable, lt_of_mem_witnessWords, htext⟩⟩

theorem encode_eq_ok_iff {hrp : Text} (hlow : ∀ c ∈ hrp, ¬ c.isUpper) {payload : Bytes}
    {t : Text} : encode hrp payload = .ok t ↔
      Usable hrp ∧ t = textOf hrp (Regroup.ofBytes 5 payload) := by
  rw [← print_eq_ok_iff hlow, encode, mapError_eq_ok_iff]

theorem encodeWitness_eq_ok_iff {hrp : Text} (hlow : ∀ c ∈ hrp, ¬ c.isUpper) {program : Bytes}
    {t : Text} : encodeWitness hrp program = .ok t ↔
      Usable hrp ∧ t = textOf hrp (0 :: Regroup.ofBytes 5 program) := by
  rw [← print_eq_ok_iff hlow, encodeWitness, mapError_eq_ok_iff]

/-! ## The form of a text -/

theorem length_textOf (hrp : Text) (words : Bytes) :
    (textOf hrp words).length = hrp.length + words.length + 7 := by
  rw [textOf, List.length_append, List.length_cons, Base32.length_encode,
    CyclicCode.length_withChecksum]
  show hrp.length + (words.length + 6 + 1) = _
  omega

theorem noUpper_textOf {hrp : Text} (hlow : ∀ c ∈ hrp, ¬ c.isUpper) {words : Bytes}
    (hwords : ∀ w ∈ words, w.toNat < 32) : ∀ c ∈ textOf hrp words, ¬ c.isUpper := by
  intro c hc
  rcases List.mem_append.1 hc with hc | hc
  · exact hlow c hc
  · rcases List.mem_cons.1 hc with rfl | hc
    · decide
    · exact Base32.noUpper_digits c
        (Base32.of_mem_encode (CyclicCode.lt_of_mem_withChecksum hwords) hc)

end Bech32

namespace Cosmos

/-- A payload is read in the format, and its length is one of two. -/
theorem validate_eq_ok_iff {hrp s : Text} :
    validate hrp s = .ok () ↔ ∃ payload : Bytes,
      (payload.length = 20 ∨ payload.length = 32) ∧ Bech32.decode s hrp = .ok payload := by
  rw [validate, bind_eq_ok_iff]
  refine exists_congr fun payload => ?_
  rw [guard_eq_ok_iff, and_comm, and_assoc]
  simp

end Cosmos

end CoinAddress

import CoinAddress.Proofs.CrcCode
import CoinAddress.Proofs.Differences
import CoinAddress.Proofs.TonForms

/-!
# What the checksum of TON detects

Two byte strings of one length that end with their checksum differ over more than 16 bits:
`Crc16.differOver_of_endsWithChecksum`. A character of Base64 stands for six bits, so one character
or two neighbours cover no such stretch, wherever they are cut from the bytes.

So two texts are not told apart by one character or by two neighbours, and a text with such a
change is refused unless it spells the same account in the other alphabet:
`Ton.adjacent_change_is_refused`.
-/

namespace CoinAddress

open Regroup (bits)

/-! ## Bits -/

namespace Crc16

/-- Whether the last two bytes are the checksum of the bytes before them. -/
def EndsWithChecksum (bs : Bytes) : Prop :=
  bytes (bs.take (bs.length - 2)) = bs.drop (bs.length - 2)

instance (bs : Bytes) : Decidable (EndsWithChecksum bs) := inferInstanceAs (Decidable (_ = _))

theorem checksum_eq_zero {bs : Bytes} (h : EndsWithChecksum bs) : checksum bs = 0 := by
  rw [← List.take_append_drop (bs.length - 2) bs, ← h]
  exact checksum_append_bytes _

theorem endsWithChecksum_append_bytes (message : Bytes) :
    EndsWithChecksum (message ++ bytes message) := by
  have hcut : (message ++ bytes message).length - 2 = message.length := by
    rw [List.length_append, Ton.length_crc, Nat.add_sub_cancel]
  rw [EndsWithChecksum, hcut, List.take_left, List.drop_left]

/-- **Messages with the same checksum do not differ within its width.** -/
theorem differOver_of_checksum_eq {a b : Bytes} (hlen : a.length = b.length) (hne : a ≠ b)
    (h : checksum a = checksum b) : DifferOver 16 (bits 8 a) (bits 8 b) := by
  have hbits : bits 8 a ≠ bits 8 b := fun heq => hne <| Regroup.eq_of_bits_eq 8
    (fun w _ => UInt8.toNat_lt_size w) (fun w _ => UInt8.toNat_lt_size w) hlen heq
  refine differOver_of_ne (by simp [hlen]) hbits ?_
  intro before us ws after ha hb hlen' hshort
  exact eq_of_checksum_eq ha hb hlen' hshort h

theorem differOver_of_endsWithChecksum {a b : Bytes} (hlen : a.length = b.length)
    (ha : EndsWithChecksum a) (hb : EndsWithChecksum b) (hne : a ≠ b) :
    DifferOver 16 (bits 8 a) (bits 8 b) :=
  differOver_of_checksum_eq hlen hne ((checksum_eq_zero ha).trans (checksum_eq_zero hb).symm)

end Crc16

/-! ## Words -/

/-- Words whose bits differ over a stretch that is longer than some words differ over more words. -/
theorem DifferOver.of_bits {width m n : Nat} {us ws : Bytes} (hlen : us.length = ws.length)
    (hwide : width * m ≤ n) (h : DifferOver n (bits width us) (bits width ws)) :
    DifferOver m us ws := by
  refine differOver_of_ne hlen (fun heq => h.ne (heq ▸ rfl)) ?_
  rintro before us' ws' after rfl rfl hlen' hshort
  -- the bits that differ would be among those of a few words
  rw [Regroup.bits_append, Regroup.bits_append, Regroup.bits_append, Regroup.bits_append] at h
  refine absurd h (not_differOver_stretch (by simp [hlen']) ?_ _ _)
  rw [Regroup.length_bits]
  exact Nat.le_trans (Nat.mul_le_mul_left width hshort) hwide

namespace Base64

theorem ofBytes_injective {a b : Bytes} (h : Regroup.ofBytes 6 a = Regroup.ofBytes 6 b) :
    a = b := by
  have ha := (Regroup.regroup_eq_ok_iff_ofBytes (show 0 < 6 by decide) (by decide)).2 h
  rw [(Regroup.regroup_eq_ok_iff_ofBytes (by decide) (by decide)).2 rfl] at ha
  exact Except.ok.inj ha

/-- Bytes that differ over 16 bits have values that differ in more than two neighbours. -/
theorem differOver_ofBytes {a b : Bytes} (hlen : a.length = b.length)
    (h : DifferOver 16 (bits 8 a) (bits 8 b)) :
    DifferOver 2 (Regroup.ofBytes 6 a) (Regroup.ofBytes 6 b) := by
  obtain ⟨-, k, hk, ha⟩ := Regroup.ofBytes_spec (show 0 < 6 by decide) (by decide) a
  obtain ⟨-, k', hk', hb⟩ := Regroup.ofBytes_spec (show 0 < 6 by decide) (by decide) b
  have hcount : (Regroup.ofBytes 6 a).length = (Regroup.ofBytes 6 b).length := by
    rw [Regroup.length_ofBytes (by decide) (by decide), hlen,
      Regroup.length_ofBytes (by decide) (by decide)]
  have hpad : k = k' := by
    have hla := congrArg List.length ha
    have hlb := congrArg List.length hb
    simp only [List.length_append, Regroup.length_bits, List.length_replicate] at hla hlb
    omega
  subst hpad
  refine DifferOver.of_bits hcount (show 6 * 2 ≤ 16 by decide) ?_
  rw [← ha, ← hb]
  exact h.append_right (by simp [hlen]) _

/-- No character stands for one value in one alphabet and for another one in the other. -/
theorem eq_of_digit_eq {alphabet alphabet' : Alphabet} {v w : UInt8} (hv : v.toNat < 64)
    (hw : w.toNat < 64) (h : digit alphabet v = digit alphabet' w) : v = w := by
  have hsame : ∀ {alphabet : Alphabet} {v w : UInt8}, v.toNat < 64 → w.toNat < 64 →
      digit alphabet v = digit alphabet w → v = w := by
    intro alphabet v w hv hw h
    have hread := idxOf?_digit alphabet hv
    rw [h, idxOf?_digit alphabet hw] at hread
    exact (UInt8.toNat_inj.1 (Option.some.inj hread)).symm
  have hmixed : ∀ {v w : UInt8}, v.toNat < 64 → w.toNat < 64 →
      digit .urlSafe v = digit .standard w → v = w := by
    intro v w hv hw h
    have hmem : digit .urlSafe v ∈ Alphabet.urlSafe.digits := by
      rw [digit, List.getD_eq_getElem _ _ ((length_digits .urlSafe).symm ▸ hv)]
      exact List.getElem_mem _
    rcases digit_cases hw with ⟨-, hcommon⟩ | ⟨-, hplus⟩ | ⟨-, hslash⟩
    · exact hsame hv hw (h.trans hcommon)
    · rw [h, hplus] at hmem
      exact absurd hmem (by decide)
    · rw [h, hslash] at hmem
      exact absurd hmem (by decide)
  cases alphabet with
  | standard =>
    cases alphabet' with
    | standard => exact hsame hv hw h
    | urlSafe => exact (hmixed hw hv h.symm).symm
  | urlSafe =>
    cases alphabet' with
    | standard => exact hmixed hv hw h
    | urlSafe => exact hsame hv hw h

/-- Where the values of two texts differ, so do the texts. -/
theorem mem_differences_of_values (alphabet alphabet' : Alphabet) {us ws : Bytes}
    (hus : ∀ v ∈ us, v.toNat < 64) (hws : ∀ v ∈ ws, v.toNat < 64) {i : Nat}
    (h : i ∈ differences us ws) :
    i ∈ differences (us.map (digit alphabet)) (ws.map (digit alphabet')) := by
  obtain ⟨hlt, hne⟩ := mem_differences.1 h
  refine mem_differences.2 ⟨by rwa [List.length_map], fun heq => hne ?_⟩
  rw [List.getElem?_map, List.getElem?_map, List.getElem?_eq_getElem hlt, Option.map_some] at heq
  obtain ⟨w, hw, heq⟩ := Option.map_eq_some_iff.1 heq.symm
  rw [List.getElem?_eq_getElem hlt, hw, eq_of_digit_eq (hws w (List.mem_of_getElem? hw))
    (hus _ (List.getElem_mem hlt)) heq]

end Base64

/-! ## Texts -/

namespace Ton

/-- The values of the characters of an account's text. -/
def Address.values (a : Address) : Bytes := Regroup.ofBytes 6 (a.body ++ Crc16.bytes a.body)

theorem Address.length_values (a : Address) : a.values.length = 48 := by
  rw [values, Regroup.length_ofBytes (by decide) (by decide), List.length_append, length_body,
    length_crc]

theorem Address.lt_of_mem_values (a : Address) : ∀ v ∈ a.values, v.toNat < 64 := lt_of_mem_words

/-- What is read for a text without a colon are the values of its account. -/
theorem eq_map_values_of_parse {s : Text} {a : Address} (hcolon : ':' ∉ s) (h : parse s = .ok a) :
    s = a.values.map (Base64.digit (alphabetOf s)) := ((parse_eq_ok_iff hcolon).1 h).2

theorem valuesFrom_of_parse {s : Text} {a : Address} (hcolon : ':' ∉ s) (h : parse s = .ok a) :
    Base64.valuesFrom (alphabetOf s) 0 s = .ok a.values :=
  Base64.valuesFrom_eq_ok_iff.2 ⟨a.lt_of_mem_values, eq_map_values_of_parse hcolon h⟩

/-- Accounts in use are told apart by their values. -/
theorem eq_of_values_eq {s t : Text} {a b : Address} (hs : parse s = .ok a) (hcolon : ':' ∉ s)
    (ht : parse t = .ok b) (hcolon' : ':' ∉ t) (h : a.values = b.values) : a = b := by
  have hbytes := Base64.ofBytes_injective h
  have ha := ofBytes_eq_ok_iff.2 ⟨((parse_eq_ok_iff hcolon).1 hs).1, rfl⟩
  rw [hbytes, ofBytes_eq_ok_iff.2 ⟨((parse_eq_ok_iff hcolon').1 ht).1, rfl⟩] at ha
  exact (Except.ok.inj ha).symm

theorem differOver_values {a b : Address} (h : a.values ≠ b.values) :
    DifferOver 2 a.values b.values := by
  have hlen : (a.body ++ Crc16.bytes a.body).length = (b.body ++ Crc16.bytes b.body).length := by
    simp
  refine Base64.differOver_ofBytes hlen (Crc16.differOver_of_endsWithChecksum hlen
    (Crc16.endsWithChecksum_append_bytes _) (Crc16.endsWithChecksum_append_bytes _) fun heq => ?_)
  exact h (by rw [Address.values, heq, Address.values])

/-- Texts of two accounts, in either alphabet, do not differ in two neighbours only. -/
theorem differOver_texts {alphabet alphabet' : Base64.Alphabet} {a b : Address}
    (h : a.values ≠ b.values) : DifferOver 2 (a.toTextIn alphabet) (b.toTextIn alphabet') :=
  (differOver_values h).mono fun _ =>
    Base64.mem_differences_of_values alphabet alphabet' a.lt_of_mem_values b.lt_of_mem_values

/-- A text that is read where another one without a colon is, has no colon either. -/
theorem colon_not_mem_of_length {s t : Text} {a b : Address} (hs : parse s = .ok a)
    (hcolon : ':' ∉ s) (ht : parse t = .ok b) (hlen : s.length = t.length) : ':' ∉ t := by
  intro hmem
  obtain ⟨-, workchain, hash, rfl, -, hraw⟩ := parse_raw_iff.1 ⟨ht, hmem⟩
  rw [eq_map_values_of_parse hcolon hs, List.length_map, a.length_values, List.length_append,
    List.length_cons, hraw.hash_length] at hlen
  omega

/-- Texts that differ in one character or in two neighbours spell one account. -/
theorem eq_of_stretch {before us vs after : Text} {a b : Address} (hlen : us.length = vs.length)
    (hshort : us.length ≤ 2) (hcolon : ':' ∉ before ++ us ++ after)
    (hs : parse (before ++ us ++ after) = .ok a) (ht : parse (before ++ vs ++ after) = .ok b) :
    b = a := by
  have hcolon' := colon_not_mem_of_length hs hcolon ht (by simp [hlen])
  by_contra hne
  have hvalues : a.values ≠ b.values := fun heq =>
    hne (eq_of_values_eq hs hcolon ht hcolon' heq).symm
  refine not_differOver_stretch hlen hshort before after ?_
  rw [((parse_eq_ok_iff hcolon).1 hs).2, ((parse_eq_ok_iff hcolon').1 ht).2]
  exact differOver_texts hvalues

/-- **One wrong character, or two wrong neighbours, are detected.** Two byte strings of one length
that end with their checksum differ over more than 16 bits. So the values of two texts without a
colon that are read as addresses are the same, as are the accounts, or differ in positions that are
not next to each other; and what becomes of a text when one character or two neighbours are
exchanged is refused or spells the same account. -/
theorem adjacent_change_is_refused :
    (∀ a b : Bytes, a.length = b.length → Crc16.EndsWithChecksum a → Crc16.EndsWithChecksum b →
      a ≠ b → ∃ first last, (differences (bits 8 a) (bits 8 b)).head? = some first ∧
        (differences (bits 8 a) (bits 8 b)).getLast? = some last ∧ first + 16 ≤ last) ∧
    (∀ s t a b, ':' ∉ s → ':' ∉ t → parse s = .ok a → parse t = .ok b →
      ∃ us ws, Base64.valuesFrom (alphabetOf s) 0 s = .ok us ∧
        Base64.valuesFrom (alphabetOf t) 0 t = .ok ws ∧ us.length = 48 ∧ ws.length = 48 ∧
        (us = ws ↔ a = b) ∧
        (us ≠ ws → ∃ first last, (differences us ws).head? = some first ∧
          (differences us ws).getLast? = some last ∧ first + 2 ≤ last)) ∧
    ∀ (before us vs after : Text) (a b : Address), us.length = vs.length → us.length ≤ 2 →
      ':' ∉ before ++ us ++ after → parse (before ++ us ++ after) = .ok a →
        parse (before ++ vs ++ after) = .ok b → b = a := by
  refine ⟨?_, ?_, ?_⟩
  · intro a b hlen ha hb hne
    exact Crc16.differOver_of_endsWithChecksum hlen ha hb hne
  · intro s t a b hcolon hcolon' hs ht
    refine ⟨a.values, b.values, valuesFrom_of_parse hcolon hs, valuesFrom_of_parse hcolon' ht,
      a.length_values, b.length_values, ?_, differOver_values⟩
    constructor
    · exact eq_of_values_eq hs hcolon ht hcolon'
    · rintro rfl
      rfl
  · intro before us vs after a b hlen hshort hcolon hs ht
    exact eq_of_stretch hlen hshort hcolon hs ht

/-- The account of the base chain whose hash has all bits set. -/
def brightAccount : Address := ⟨0, List.replicate 32 0xff, true, false, rfl⟩

/-- An account of the base chain from which messages must not bounce. -/
def walletAccount : Address :=
  ⟨0, [0x4c, 0xd9, 0x21, 0xd5, 0xd4, 0x0b, 0xa1, 0x0c, 0xd3, 0x01, 0xe0, 0x4e, 0xbd, 0x48, 0xcb,
    0x73, 0xaa, 0xcb, 0x4a, 0x1b, 0x62, 0x7f, 0x65, 0x7c, 0x2a, 0xa5, 0xd8, 0x26, 0x02, 0xeb, 0xa5,
    0xad], false, false, rfl⟩

/-- Byte strings with 17 bits from the first difference to the last, texts of two accounts, and a
text in which the one character of its alphabet is exchanged for that of the other. -/
theorem adjacent_change_is_refused_wallet :
    (∃ first last, (differences (bits 8 [0x00, 0x00, 0x00]) (bits 8 [0x01, 0x10, 0x21])).head? =
        some first ∧ (differences (bits 8 [0x00, 0x00, 0x00])
          (bits 8 [0x01, 0x10, 0x21])).getLast? = some last ∧ first + 16 ≤ last) ∧
    (∃ us ws, Base64.valuesFrom .urlSafe 0
          "EQD__________________________________________0vo".toList = .ok us ∧
        Base64.valuesFrom .urlSafe 0
          "UQBM2SHV1AuhDNMB4E69SMtzqstKG2J_ZXwqpdgmAuulrUom".toList = .ok ws ∧
      (us = ws ↔ brightAccount = walletAccount)) ∧
    ∃ b, parse "UQBM2SHV1AuhDNMB4E69SMtzqstKG2J/ZXwqpdgmAuulrUom".toList = .ok b ∧
      b = walletAccount :=
  have hbright : parse "EQD__________________________________________0vo".toList =
      .ok brightAccount := by
    rw [← parse_toText (.inl rfl)]
    exact congrArg parse (by decide +kernel)
  have hwallet : parse "UQBM2SHV1AuhDNMB4E69SMtzqstKG2J_ZXwqpdgmAuulrUom".toList =
      .ok walletAccount := by
    rw [← parse_toText (.inl rfl)]
    exact congrArg parse (by decide +kernel)
  have hslash : parse "UQBM2SHV1AuhDNMB4E69SMtzqstKG2J/ZXwqpdgmAuulrUom".toList =
      .ok walletAccount := (parse_friendly_iff.2 ⟨.inl rfl, .inr (by decide +kernel)⟩).1
  have h := adjacent_change_is_refused
  ⟨h.1 _ _ rfl (by decide) (by decide) (by decide),
    let ⟨us, ws, hus, hws, _, _, hiff, _⟩ := h.2.1 _ _ _ _ (by decide +kernel) (by decide +kernel)
      hbright hwallet
    ⟨us, ws, hus, hws, hiff⟩,
    _, hslash, h.2.2 "UQBM2SHV1AuhDNMB4E69SMtzqstKG2J".toList ['_'] ['/'] "ZXwqpdgmAuulrUom".toList
      _ _ rfl (by decide) (by decide +kernel) hwallet hslash⟩

end Ton

end CoinAddress

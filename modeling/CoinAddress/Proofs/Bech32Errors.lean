import CoinAddress.Proofs.Bech32Forms
import CoinAddress.Proofs.CodeDistance
import CoinAddress.Proofs.Garbled

/-!
# What the checksum of Bech32 detects

Two texts of one length that are read under one human-readable part have the separator in the same
place, so they differ in their data characters only, and there over more than six positions:
`differOver_of_parse`. The length is not limited.

So a text that is garbled within six consecutive characters of an address is refused, as bare bytes,
as a witness program and as an address of either family: `garbled_text_is_refused`.
-/

namespace CoinAddress.Bech32

/-- Texts of one length with the first of the two checksums are the same or differ over more than
six positions. -/
theorem differOver_of_parse {hrp s t : Text} {us ws : Bytes} (hs : parse s = .ok ⟨hrp, us, .bech32⟩)
    (ht : parse t = .ok ⟨hrp, ws, .bech32⟩) (hlen : s.length = t.length)
    (hne : s.map Char.toLower ≠ t.map Char.toLower) :
    DifferOver 6 (s.map Char.toLower) (t.map Char.toLower) := by
  obtain ⟨-, -, hus, hs⟩ := parse_eq_ok_iff.1 hs
  obtain ⟨-, -, hws, ht⟩ := parse_eq_ok_iff.1 ht
  have hcount : us.length = ws.length := by
    have htotal : (textOf hrp us).length = (textOf hrp ws).length := by
      rw [← hs, ← ht, List.length_map, List.length_map, hlen]
    rw [length_textOf, length_textOf] at htotal
    omega
  rw [hs, ht] at hne ⊢
  rw [textOf_eq, textOf_eq]
  refine DifferOver.append_left ?_ _
  refine CyclicCode.differOver_encode_withChecksum CyclicCode.sound_bech32 (by decide) _ hus hws
    hcount fun hwords => hne ?_
  rw [textOf, textOf, hwords]

/-- Of a text and what it becomes when it is garbled, only one is read. -/
theorem parse_ne_of_garbled {hrp s t : Text} {us ws : Bytes} (h : Garbled 6 s t)
    (hs : parse s = .ok ⟨hrp, us, .bech32⟩) : parse t ≠ .ok ⟨hrp, ws, .bech32⟩ := fun ht =>
  h.not_differOver (differOver_of_parse hs ht h.length_eq (h.lower_ne (parse_eq_ok_iff.1 ht).1))

theorem exists_words_of_decode {s hrp : Text} {payload : Bytes} (h : decode s hrp = .ok payload) :
    ∃ words, parse s = .ok ⟨hrp, words, .bech32⟩ := ⟨_, decode_eq_ok_iff_parse.1 h⟩

theorem exists_words_of_decodeWitness {s hrp : Text} {program : Bytes}
    (h : decodeWitness s hrp = .ok program) : ∃ words, parse s = .ok ⟨hrp, words, .bech32⟩ :=
  ⟨_, (decodeWitness_eq_ok_iff_parse.1 h).2⟩

theorem decode_of_garbled {hrp s t : Text} {payload : Bytes} (hgarbled : Garbled 6 s t)
    (hs : decode s hrp = .ok payload) : ∃ e, decode t hrp = .error e := by
  refine exists_error_iff.2 fun payload' ht => ?_
  obtain ⟨us, hs⟩ := exists_words_of_decode hs
  obtain ⟨ws, ht⟩ := exists_words_of_decode ht
  exact parse_ne_of_garbled hgarbled hs ht

theorem decodeWitness_of_garbled {hrp s t : Text} {program : Bytes} (hgarbled : Garbled 6 s t)
    (hs : decodeWitness s hrp = .ok program) : ∃ e, decodeWitness t hrp = .error e := by
  refine exists_error_iff.2 fun program' ht => ?_
  obtain ⟨us, hs⟩ := exists_words_of_decodeWitness hs
  obtain ⟨ws, ht⟩ := exists_words_of_decodeWitness ht
  exact parse_ne_of_garbled hgarbled hs ht

/-- **Errors in one place are detected,** in texts of any length. Two texts of one length that are
both read as bytes, or both as witness programs, under a human-readable part are the same up to
their letter case or differ over more than six positions. So what becomes of an accepted text when
six consecutive characters or fewer are garbled is refused. -/
theorem garbled_text_is_refused (hrp : Text) :
    (∀ s t, s.length = t.length → s.map Char.toLower ≠ t.map Char.toLower →
      ((∃ p q, decode s hrp = .ok p ∧ decode t hrp = .ok q) ∨
        ∃ p q, decodeWitness s hrp = .ok p ∧ decodeWitness t hrp = .ok q) →
      ∃ first last, (differences (s.map Char.toLower) (t.map Char.toLower)).head? = some first ∧
        (differences (s.map Char.toLower) (t.map Char.toLower)).getLast? = some last ∧
          first + 6 ≤ last) ∧
    ∀ s t, Garbled 6 s t →
      (∀ p, decode s hrp = .ok p → ∃ e, decode t hrp = .error e) ∧
      (∀ p, decodeWitness s hrp = .ok p → ∃ e, decodeWitness t hrp = .error e) ∧
      ∀ family, family = .segWit hrp ∨ family = .cosmos hrp →
        Family.validate family s = .ok () → ∃ e, Family.validate family t = .error e := by
  constructor
  · intro s t hlen hne hread
    rcases hread with ⟨p, q, hs, ht⟩ | ⟨p, q, hs, ht⟩
    · obtain ⟨us, hs⟩ := exists_words_of_decode hs
      obtain ⟨ws, ht⟩ := exists_words_of_decode ht
      exact differOver_of_parse hs ht hlen hne
    · obtain ⟨us, hs⟩ := exists_words_of_decodeWitness hs
      obtain ⟨ws, ht⟩ := exists_words_of_decodeWitness ht
      exact differOver_of_parse hs ht hlen hne
  · intro s t hgarbled
    refine ⟨fun p => decode_of_garbled hgarbled, fun p => decodeWitness_of_garbled hgarbled, ?_⟩
    rintro family (rfl | rfl) hs
    · obtain ⟨program, hs⟩ := map_unit_eq_ok_iff.1 hs
      obtain ⟨e, he⟩ := decodeWitness_of_garbled hgarbled hs
      exact ⟨e, by rw [Family.validate, he]; rfl⟩
    · obtain ⟨payload, -, hs⟩ := Cosmos.validate_eq_ok_iff.1 hs
      obtain ⟨e, he⟩ := decode_of_garbled hgarbled hs
      exact ⟨e, by rw [Family.validate, Cosmos.validate, he]; rfl⟩

/-- The sample program, the same backwards, and a text whose separator is one of six characters in
reverse. -/
theorem garbled_text_is_refused_bc :
    decodeWitness "bc1qw508d6qejxtdg4y5r3zarvary0c5xw7kv8f3t4".toList "bc".toList =
      .ok sampleProgram ∧
    decodeWitness "bc1q6ca58ufr5weaz3guj32df953r858v8n4ml20ny".toList "bc".toList =
      .ok sampleProgram.reverse ∧
    (∃ first last, (differences "bc1qw508d6qejxtdg4y5r3zarvary0c5xw7kv8f3t4".toList
        "bc1q6ca58ufr5weaz3guj32df953r858v8n4ml20ny".toList).head? = some first ∧
      (differences "bc1qw508d6qejxtdg4y5r3zarvary0c5xw7kv8f3t4".toList
        "bc1q6ca58ufr5weaz3guj32df953r858v8n4ml20ny".toList).getLast? = some last ∧
      first + 6 ≤ last) ∧
    ∃ e, decodeWitness "b05wq1c8d6qejxtdg4y5r3zarvary0c5xw7kv8f3t4".toList "bc".toList =
      .error e :=
  have hread : decodeWitness "bc1qw508d6qejxtdg4y5r3zarvary0c5xw7kv8f3t4".toList "bc".toList =
      .ok sampleProgram := by decide +kernel
  have hread' : decodeWitness "bc1q6ca58ufr5weaz3guj32df953r858v8n4ml20ny".toList "bc".toList =
      .ok sampleProgram.reverse := by decide +kernel
  have hgarbled : Garbled 6 ("b".toList ++ "c1qw50".toList ++
      "8d6qejxtdg4y5r3zarvary0c5xw7kv8f3t4".toList) ("b".toList ++ "05wq1c".toList ++
        "8d6qejxtdg4y5r3zarvary0c5xw7kv8f3t4".toList) :=
    .mk _ _ (by decide) (by decide) (by decide +kernel) (by decide +kernel)
  have h := garbled_text_is_refused "bc".toList
  ⟨hread, hread', h.1 _ _ (by decide) (by decide +kernel) (.inr ⟨_, _, hread, hread'⟩),
    (h.2 _ _ hgarbled).2.1 _ hread⟩

end CoinAddress.Bech32

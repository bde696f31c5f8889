import CoinAddress.Proofs.Bech32Text

/-!
# The forms of a Bech32 text

Bytes under a human-readable part in small letters have two texts, the one that is written for
them and the same in capitals. No other text is read as these bytes, and under a human-readable
part with a capital letter nothing is read at all: `decode_payload_iff_encode` for bare bytes and
for addresses of Cosmos chains, `decode_witness_iff_encode` for witness programs.
-/

namespace CoinAddress.Bech32

open Text (mixedCase)

/-- A text is read as words just when its small letters are what is printed for them. -/
theorem parse_eq_ok_iff_print {s hrp : Text} {words : Bytes}
    (hwords : ∀ w ∈ words, w.toNat < 32) :
    parse s = .ok ⟨hrp, words, .bech32⟩ ↔ (∀ c ∈ hrp, ¬ c.isUpper) ∧ mixedCase s = false ∧
      print hrp words = .ok (s.map Char.toLower) := by
  rw [parse_eq_ok_iff]
  constructor
  · rintro ⟨hcase, husable, -, htext⟩
    exact ⟨husable.noUpper, hcase, (print_eq_ok_iff husable.noUpper).2 ⟨husable, htext⟩⟩
  · rintro ⟨hlow, hcase, hprint⟩
    obtain ⟨husable, htext⟩ := (print_eq_ok_iff hlow).1 hprint
    exact ⟨hcase, husable, hwords, htext⟩

/-- What is printed for words has two forms, of which each is read as the words. -/
theorem parse_iff_forms {hrp t : Text} {words : Bytes} (hlow : ∀ c ∈ hrp, ¬ c.isUpper)
    (hwords : ∀ w ∈ words, w.toNat < 32) (ht : print hrp words = .ok t) (s : Text) :
    parse s = .ok ⟨hrp, words, .bech32⟩ ↔ s = t ∨ s = t.map Char.toUpper := by
  obtain ⟨husable, rfl⟩ := (print_eq_ok_iff hlow).1 ht
  rw [← Text.lower_eq_iff (noUpper_textOf hlow hwords), parse_eq_ok_iff]
  constructor
  · rintro ⟨hcase, -, -, htext⟩
    exact ⟨hcase, htext⟩
  · rintro ⟨hcase, htext⟩
    exact ⟨hcase, husable, hwords, htext⟩

/-- Which human-readable parts in small letters can be written under. -/
theorem exists_print_iff {hrp : Text} (hlow : ∀ c ∈ hrp, ¬ c.isUpper) (words : Bytes) :
    (∃ t, print hrp words = .ok t) ↔ Usable hrp := by
  constructor
  · rintro ⟨t, ht⟩
    exact ((print_eq_ok_iff hlow).1 ht).1
  · intro husable
    exact ⟨_, (print_eq_ok_iff hlow).2 ⟨husable, rfl⟩⟩

/-! ## Bare bytes -/

theorem encode_eq_ok_iff_print {hrp t : Text} {payload : Bytes} :
    encode hrp payload = .ok t ↔ print hrp (Regroup.ofBytes 5 payload) = .ok t :=
  mapError_eq_ok_iff

theorem decode_eq_ok_iff_encode {s hrp : Text} {payload : Bytes} :
    decode s hrp = .ok payload ↔ (∀ c ∈ hrp, ¬ c.isUpper) ∧ mixedCase s = false ∧
      encode hrp payload = .ok (s.map Char.toLower) := by
  rw [decode_eq_ok_iff_parse, parse_eq_ok_iff_print lt_of_mem_words, encode_eq_ok_iff_print]

theorem decode_iff_forms {hrp t : Text} {payload : Bytes} (hlow : ∀ c ∈ hrp, ¬ c.isUpper)
    (ht : encode hrp payload = .ok t) (s : Text) :
    decode s hrp = .ok payload ↔ s = t ∨ s = t.map Char.toUpper := by
  rw [decode_eq_ok_iff_parse]
  exact parse_iff_forms hlow lt_of_mem_words (encode_eq_ok_iff_print.1 ht) s

/-- An address of a Cosmos chain is one of the forms of 20 or of 32 bytes. -/
theorem validate_cosmos_iff_forms {hrp s : Text} :
    Cosmos.validate hrp s = .ok () ↔ (∀ c ∈ hrp, ¬ c.isUpper) ∧
      ∃ payload t, (payload.length = 20 ∨ payload.length = 32) ∧ encode hrp payload = .ok t ∧
        (s = t ∨ s = t.map Char.toUpper) := by
  rw [Cosmos.validate_eq_ok_iff]
  constructor
  · rintro ⟨payload, hlen, hs⟩
    obtain ⟨hlow, -, ht⟩ := decode_eq_ok_iff_encode.1 hs
    exact ⟨hlow, payload, _, hlen, ht, (decode_iff_forms hlow ht s).1 hs⟩
  · rintro ⟨hlow, payload, t, hlen, ht, hs⟩
    exact ⟨payload, hlen, (decode_iff_forms hlow ht s).2 hs⟩

/-- **Bytes of any number are read from a text just when its small letters are what is written for
them,** under a human-readable part in small letters. What is written is read back, as it stands
and in capitals. Addresses of Cosmos chains are the two forms of 20 or of 32 bytes. -/
theorem decode_payload_iff_encode (hrp : Text) :
    (∀ s payload, decode s hrp = .ok payload ↔ (∀ c ∈ hrp, ¬ c.isUpper) ∧
      mixedCase s = false ∧ encode hrp payload = .ok (s.map Char.toLower)) ∧
    (∀ payload t, (∀ c ∈ hrp, ¬ c.isUpper) → encode hrp payload = .ok t →
      ∀ s, decode s hrp = .ok payload ↔ s = t ∨ s = t.map Char.toUpper) ∧
    (∀ s, Cosmos.validate hrp s = .ok () ↔ (∀ c ∈ hrp, ¬ c.isUpper) ∧
      ∃ payload t, (payload.length = 20 ∨ payload.length = 32) ∧ encode hrp payload = .ok t ∧
        (s = t ∨ s = t.map Char.toUpper)) ∧
    ((∀ c ∈ hrp, ¬ c.isUpper) → ∀ payload, (∃ t, encode hrp payload = .ok t) ↔ Usable hrp) := by
  refine ⟨?_, ?_, ?_, ?_⟩
  · intro s payload
    exact decode_eq_ok_iff_encode
  · intro payload t hlow ht s
    exact decode_iff_forms hlow ht s
  · intro s
    exact validate_cosmos_iff_forms
  · intro hlow payload
    simp only [encode_eq_ok_iff_print]
    exact exists_print_iff hlow _

/-- Twenty bytes. -/
def sampleProgram : Bytes :=
  [0x75, 0x1e, 0x76, 0xe8, 0x19, 0x91, 0x96, 0xd4, 0x54, 0x94, 0x1c, 0x45, 0xd1, 0xb3, 0xa3, 0x23,
   0xf1, 0x43, 0x3b, 0xd6]

/-- A human-readable part that ends with a separator, and a text in capitals. -/
theorem decode_payload_iff_encode_cosmos1 :
    (∀ c ∈ "cosmos1".toList, ¬ c.isUpper) ∧ Usable "cosmos1".toList ∧
      encode "cosmos1".toList sampleProgram =
        .ok "cosmos11w508d6qejxtdg4y5r3zarvary0c5xw7k7nqpmt".toList ∧
      decode "COSMOS11W508D6QEJXTDG4Y5R3ZARVARY0C5XW7K7NQPMT".toList "cosmos1".toList =
        .ok sampleProgram ∧
      Cosmos.validate "cosmos1".toList
        "COSMOS11W508D6QEJXTDG4Y5R3ZARVARY0C5XW7K7NQPMT".toList = .ok () :=
  have hlow : ∀ c ∈ "cosmos1".toList, ¬ c.isUpper :=
    List.any_eq_false.1 (show "cosmos1".toList.any Char.isUpper = false by decide)
  have hwritten : encode "cosmos1".toList sampleProgram =
      .ok "cosmos11w508d6qejxtdg4y5r3zarvary0c5xw7k7nqpmt".toList := by decide +kernel
  have hcapitals : "COSMOS11W508D6QEJXTDG4Y5R3ZARVARY0C5XW7K7NQPMT".toList =
      "cosmos11w508d6qejxtdg4y5r3zarvary0c5xw7k7nqpmt".toList.map Char.toUpper := by
    decide +kernel
  have h := decode_payload_iff_encode "cosmos1".toList
  ⟨hlow, (h.2.2.2 hlow sampleProgram).1 ⟨_, hwritten⟩, hwritten,
    (h.2.1 _ _ hlow hwritten _).2 (.inr hcapitals),
    (h.2.2.1 _).2 ⟨hlow, _, _, .inl rfl, hwritten, .inr hcapitals⟩⟩

/-! ## Witness programs -/

theorem encodeWitness_eq_ok_iff_print {hrp t : Text} {program : Bytes} :
    encodeWitness hrp program = .ok t ↔ print hrp (0 :: Regroup.ofBytes 5 program) = .ok t :=
  mapError_eq_ok_iff

theorem decodeWitness_eq_ok_iff_encodeWitness {s hrp : Text} {program : Bytes} :
    decodeWitness s hrp = .ok program ↔ (program.length = 20 ∨ program.length = 32) ∧
      (∀ c ∈ hrp, ¬ c.isUpper) ∧ mixedCase s = false ∧
        encodeWitness hrp program = .ok (s.map Char.toLower) := by
  rw [decodeWitness_eq_ok_iff_parse, parse_eq_ok_iff_print lt_of_mem_witnessWords,
    encodeWitness_eq_ok_iff_print]

theorem decodeWitness_iff_forms {hrp t : Text} {program : Bytes}
    (hlen : program.length = 20 ∨ program.length = 32) (hlow : ∀ c ∈ hrp, ¬ c.isUpper)
    (ht : encodeWitness hrp program = .ok t) (s : Text) :
    decodeWitness s hrp = .ok program ↔ s = t ∨ s = t.map Char.toUpper := by
  rw [decodeWitness_eq_ok_iff_parse, and_iff_right hlen]
  exact parse_iff_forms hlow lt_of_mem_witnessWords (encodeWitness_eq_ok_iff_print.1 ht) s

/-- **A witness program is read from a text just when its small letters are what is written for
it,** it has 20 or 32 bytes and the human-readable part is in small letters. What is written is
read back, as it stands and in capitals; and a text that is read has the first of the two checksums
and version 0. -/
theorem decode_witness_iff_encode (hrp : Text) (program : Bytes) :
    (∀ s, decodeWitness s hrp = .ok program ↔ (program.length = 20 ∨ program.length = 32) ∧
      (∀ c ∈ hrp, ¬ c.isUpper) ∧ mixedCase s = false ∧
        encodeWitness hrp program = .ok (s.map Char.toLower)) ∧
    (∀ t, program.length = 20 ∨ program.length = 32 → (∀ c ∈ hrp, ¬ c.isUpper) →
      encodeWitness hrp program = .ok t →
        ∀ s, decodeWitness s hrp = .ok program ↔ s = t ∨ s = t.map Char.toUpper) ∧
    (∀ s, decodeWitness s hrp = .ok program →
      parse s = .ok ⟨hrp, 0 :: Regroup.ofBytes 5 program, .bech32⟩) ∧
    ((∀ c ∈ hrp, ¬ c.isUpper) → ((∃ t, encodeWitness hrp program = .ok t) ↔ Usable hrp)) := by
  refine ⟨?_, ?_, ?_, ?_⟩
  · intro s
    exact decodeWitness_eq_ok_iff_encodeWitness
  · intro t hlen hlow ht s
    exact decodeWitness_iff_forms hlen hlow ht s
  · intro s hs
    exact (decodeWitness_eq_ok_iff_parse.1 hs).2
  · intro hlow
    simp only [encodeWitness_eq_ok_iff_print]
    exact exists_print_iff hlow _

/-- A witness program under the human-readable part of Bitcoin, in capitals. -/
theorem decode_witness_iff_encode_bc :
    (∀ c ∈ "bc".toList, ¬ c.isUpper) ∧ Usable "bc".toList ∧
      encodeWitness "bc".toList sampleProgram =
        .ok "bc1qw508d6qejxtdg4y5r3zarvary0c5xw7kv8f3t4".toList ∧
      decodeWitness "BC1QW508D6QEJXTDG4Y5R3ZARVARY0C5XW7KV8F3T4".toList "bc".toList =
        .ok sampleProgram ∧
      parse "BC1QW508D6QEJXTDG4Y5R3ZARVARY0C5XW7KV8F3T4".toList =
        .ok ⟨"bc".toList, 0 :: Regroup.ofBytes 5 sampleProgram, .bech32⟩ :=
  have hlow : ∀ c ∈ "bc".toList, ¬ c.isUpper :=
    List.any_eq_false.1 (show "bc".toList.any Char.isUpper = false by decide)
  have hwritten : encodeWitness "bc".toList sampleProgram =
      .ok "bc1qw508d6qejxtdg4y5r3zarvary0c5xw7kv8f3t4".toList := by decide +kernel
  have hcapitals : "BC1QW508D6QEJXTDG4Y5R3ZARVARY0C5XW7KV8F3T4".toList =
      "bc1qw508d6qejxtdg4y5r3zarvary0c5xw7kv8f3t4".toList.map Char.toUpper := by decide +kernel
  have h := decode_witness_iff_encode "bc".toList sampleProgram
  have hread := (h.2.1 _ (.inl rfl) hlow hwritten _).2 (.inr hcapitals)
  ⟨hlow, (h.2.2.2 hlow).1 ⟨_, hwritten⟩, hwritten, hread, h.2.2.1 _ hread⟩

end CoinAddress.Bech32

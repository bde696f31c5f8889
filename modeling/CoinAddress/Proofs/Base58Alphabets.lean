import CoinAddress.Proofs.Base58Checked
import Mathlib.Data.Nat.Digits.Defs

/-!
# Base58 written directly in an alphabet

A text in another alphabet than the standard one is made by carrying the standard text over,
character by character. `Base58.encodeIn` writes it directly, each digit of the number as the
character of the alphabet at that position, and that gives the same text in every alphabet that is
long enough: `Base58.remap_encode`.

So accounts of the XRP Ledger are Base58 in its alphabet, and those of 20 bytes are read back:
`Ripple.written_in_its_alphabet`.

An alphabet may also be shorter or longer than the standard one. Carrying over is then partial:
`Base58.carried_over_and_back` says where it fails, and that elsewhere it is undone on the way back.
-/

namespace CoinAddress

namespace Radix

/-- The digits of a number are those of `Nat.digits`, which come least significant first. -/
theorem digits_eq_reverse {base : Nat} (hb : 2 ≤ base) (n : Nat) :
    digits base n = (Nat.digits base n).reverse := by
  induction n using Nat.strongRecOn with
  | _ n ih =>
    rw [digits]
    split
    · next h =>
      rw [ih (n / base) (Nat.div_lt_self (by omega) (by omega)),
        Nat.digits_def' (show 1 < base by omega) (show 0 < n by omega), List.reverse_cons]
    · next h =>
      have hzero : n = 0 := by omega
      rw [hzero, Nat.digits_zero, List.reverse_nil]

/-- The number with given digits is that of `Nat.ofDigits`. -/
theorem value_eq_ofDigits (base : Nat) (ds : List Nat) :
    value base ds = Nat.ofDigits base ds.reverse := by
  rw [value, Nat.ofDigits_eq_foldr, List.foldl_eq_foldr_reverse]
  congr 1
  funext d n
  rw [Nat.cast_id, Nat.mul_comm, Nat.add_comm]

end Radix

namespace Base58

/-- The digits of a byte string in base 58: a zero for each zero byte in front, then those of the
number that its bytes are the digits of in base 256. -/
def digitsOf (bs : Bytes) : List Nat :=
  List.replicate (bs.takeWhile (· == 0)).length 0 ++
    (Nat.digits 58 (Nat.ofDigits 256 (bs.map UInt8.toNat).reverse)).reverse

/-- The text of a byte string in an alphabet, written digit by digit. -/
def encodeIn (alphabet : Text) (bs : Bytes) : Text :=
  (digitsOf bs).map fun d => alphabet.getD d '1'

theorem leadingZeros_map_toNat (bs : Bytes) :
    Radix.leadingZeros (bs.map UInt8.toNat) = (bs.takeWhile (· == 0)).length := by
  have hzero : ((· == 0) : Nat → Bool) ∘ UInt8.toNat = (· == 0) := by
    funext b
    rw [Function.comp_apply, Bool.eq_iff_iff, beq_iff_eq, beq_iff_eq]
    exact UInt8.toNat_inj (b := 0)
  rw [Radix.leadingZeros, List.takeWhile_map, List.length_map, hzero]

theorem recode_eq_digitsOf (bs : Bytes) :
    Radix.recode 256 58 (bs.map UInt8.toNat) = digitsOf bs := by
  rw [Radix.recode, leadingZeros_map_toNat, Radix.value_eq_ofDigits,
    Radix.digits_eq_reverse (by decide), digitsOf]

/-- A digit is carried over to the character at its position. -/
theorem exchange?_digit {alphabet : Text} {d : Nat} (hd : d < 58) :
    exchange? digits alphabet (digit d) = alphabet[d]? := by
  rw [exchange?, idxOf?_digit hd, Option.bind_some]

/-- **Carrying a text over into an alphabet is writing it there directly.** -/
theorem remap_encode {alphabet : Text} (h : 58 ≤ alphabet.length) (bs : Bytes) :
    remap (encode bs) alphabet = .ok (encodeIn alphabet bs) := by
  rw [remap, transliterate_eq_ok_iff, encode, recode_eq_digitsOf, encodeIn,
    List.forall₂_map_left_iff, List.forall₂_map_right_iff, List.forall₂_same]
  intro d hd
  rw [← recode_eq_digitsOf] at hd
  have hlt : d < 58 := Radix.recode_lt (by decide) hd
  have hget : alphabet[d]? = some alphabet[d] := List.getElem?_eq_getElem (by omega)
  rw [exchange?_digit hlt, List.getD_eq_getElem?_getD, hget, Option.getD_some]

/-! ## Alphabets of any length -/

/-- A character that cannot be carried over is not in the first alphabet, or stands there beyond the
end of the second. -/
theorem exchange?_eq_none_iff {source target : Text} {c : Char} :
    exchange? source target c = none ↔ c ∉ source ∨ target.length ≤ source.idxOf c := by
  by_cases h : c ∈ source
  · rw [exchange?_of_mem h, List.getElem?_eq_none_iff, or_iff_right (not_not.2 h)]
  · rw [exchange?, List.idxOf?_eq_none_iff.2 h]
    exact iff_of_true rfl (.inl h)

/-- Of the characters that cannot be carried over, the first one is reported. -/
theorem transliterate_eq_error_iff_first {source target s : Text} {e : AddressError} :
    transliterate source target s = .error e ↔ ∃ before c after, s = before ++ c :: after ∧
      (∀ d ∈ before, d ∈ source ∧ source.idxOf d < target.length) ∧
      (c ∉ source ∨ target.length ≤ source.idxOf c) ∧ e = .invalidCharacter c := by
  have hcarried : ∀ d, (exchange? source target d).isNone = false ↔
      d ∈ source ∧ source.idxOf d < target.length := by
    intro d
    rw [← Bool.not_eq_true, Option.isNone_iff_eq_none, exchange?_eq_none_iff, not_or, not_not,
      Nat.not_le]
  simp only [transliterate_eq_error_iff, List.find?_eq_some_iff_append, Bool.not_eq_true', hcarried,
    Option.isNone_iff_eq_none, exchange?_eq_none_iff]
  constructor
  · rintro ⟨c, ⟨hc, before, after, hsplit, hbefore⟩, he⟩
    exact ⟨before, c, after, hsplit, hbefore, hc, he⟩
  · rintro ⟨before, c, after, hsplit, hbefore, hc, he⟩
    exact ⟨c, ⟨hc, before, after, hsplit, hbefore⟩, he⟩

/-- **Writing in an alphabet and reading from it undo each other,** wherever both succeed, if no
character comes twice in the alphabet. In any alphabet, writing fails just if the text has a
character that is not standard or that stands in the standard alphabet at a place that the other
does not have, and the first such character is reported. -/
theorem carried_over_and_back (s alphabet : Text) :
    (alphabet.Nodup → ∀ u, remap s alphabet = .ok u ↔ unmap u alphabet = .ok s) ∧
    ∀ e, remap s alphabet = .error e ↔ ∃ before c after, s = before ++ c :: after ∧
      (∀ d ∈ before, d ∈ digits ∧ digits.idxOf d < alphabet.length) ∧
      (c ∉ digits ∨ alphabet.length ≤ digits.idxOf c) ∧ e = .invalidCharacter c := by
  constructor
  · intro hnodup u
    exact (unmap_eq_ok_iff hnodup).symm
  · intro e
    exact transliterate_eq_error_iff_first

/-- An alphabet of five characters has no place for a sixth digit. -/
theorem carried_over_and_back_five :
    "ÄßЖ界𝄞".toList.Nodup ∧
    (remap "5213".toList "ÄßЖ界𝄞".toList = .ok "𝄞ßÄЖ".toList ↔
      unmap "𝄞ßÄЖ".toList "ÄßЖ界𝄞".toList = .ok "5213".toList) ∧
    unmap "𝄞ßÄЖ".toList "ÄßЖ界𝄞".toList = .ok "5213".toList ∧
    remap "5260".toList "ÄßЖ界𝄞".toList = .error (.invalidCharacter '6') := by
  have hnodup : "ÄßЖ界𝄞".toList.Nodup := by decide
  have hiff := (carried_over_and_back "5213".toList "ÄßЖ界𝄞".toList).1 hnodup "𝄞ßÄЖ".toList
  have hbefore : ∀ d ∈ ['5', '2'], d ∈ digits ∧ digits.idxOf d < "ÄßЖ界𝄞".toList.length :=
    List.forall_mem_cons.2 ⟨by decide, List.forall_mem_singleton.2 (by decide)⟩
  have hfail := (carried_over_and_back "5260".toList "ÄßЖ界𝄞".toList).2 (.invalidCharacter '6')
  exact ⟨hnodup, hiff, hiff.1 rfl,
    hfail.2 ⟨['5', '2'], '6', ['0'], rfl, hbefore, .inr (by decide), rfl⟩⟩

end Base58

namespace Ripple

/-- **Every account is written in Base58 with the alphabet of the XRP Ledger,** from the bytes that
go with a version and a checksum in any alphabet. It starts with an `r`, and just the accounts of 20
bytes are read back, each from its own text. -/
theorem written_in_its_alphabet (payload : Bytes) :
    encode payload = .ok (Base58.encodeIn alphabet
      ([0x00] ++ payload ++ (Sha256.doubleHash ([0x00] ++ payload)).take 4)) ∧
    (∃ tail, encode payload = .ok ('r' :: tail)) ∧
    ∀ s, decode s = .ok payload ↔ payload.length = 20 ∧ encode payload = .ok s := by
  refine ⟨?_, encode_eq_cons payload, ?_⟩
  · exact Base58.remap_encode (by decide) _
  · intro s
    rw [decode_eq_ok_iff, and_comm]

end Ripple

end CoinAddress

import CoinAddress.Family.Codec
import CoinAddress.Proofs.Base58Text
import CoinAddress.Proofs.Outcome
import Mathlib.Data.List.Forall2
import Mathlib.Data.List.Nodup

/-!
# Which texts carry a Base58 checksum

Addresses that are Base58 with a version and a checksum, and those of the XRP Ledger, which write
the same in another alphabet: the texts that are accepted are those that are written. The check
of Tron addresses for a first character of its own refuses none of them.

A text is carried over into an alphabet and back without loss, as long as the alphabet repeats no
character: `Base58.unmap_eq_ok_iff`.
-/

namespace CoinAddress

namespace Base58Check

theorem verify_eq_ok_iff {data version payload : Bytes} {n : Nat} :
    verify data n = .ok ⟨version, payload⟩ ↔
      version.length = n ∧ data = withChecksum version payload := by
  constructor
  · intro h
    rw [verify] at h
    split at h
    · cases h
    · next hlen =>
      simp only at h
      split at h
      · next hsum =>
        cases h
        rw [checksumLength] at hlen
        refine ⟨?_, ?_⟩
        · rw [checksumLength, List.length_take, List.length_take]
          omega
        · rw [withChecksum, List.take_append_drop, hsum, List.take_append_drop]
      · cases h
  · rintro ⟨rfl, rfl⟩
    exact verify_withChecksum version payload

/-- A text is read as a version of a given length and a payload just when it is written so. -/
theorem decode_eq_ok_iff {s : Text} {version payload : Bytes} {n : Nat} :
    decode s n = .ok ⟨version, payload⟩ ↔ version.length = n ∧ s = encode version payload := by
  constructor
  · intro h
    obtain ⟨data, hdata, hverify⟩ := bind_eq_ok_iff.1 h
    obtain ⟨hlen, rfl⟩ := verify_eq_ok_iff.1 hverify
    exact ⟨hlen, Base58.decode_eq_ok_iff.1 (mapError_eq_ok_iff.1 hdata)⟩
  · rintro ⟨rfl, rfl⟩
    exact decode_encode version payload

theorem decodeExpecting_eq_ok_iff {s : Text} {version payload : Bytes} {k : Nat} :
    decodeExpecting s version k = .ok payload ↔
      s = encode version payload ∧ payload.length = k := by
  constructor
  · intro h
    obtain ⟨found, hfound, h⟩ := bind_eq_ok_iff.1 h
    obtain ⟨hver, h⟩ := refuse_eq_ok_iff.1 h
    obtain ⟨hlen, h⟩ := refuse_eq_ok_iff.1 h
    cases h
    obtain ⟨-, htext⟩ := decode_eq_ok_iff.1 hfound
    exact ⟨not_not.1 hver ▸ htext, not_not.1 hlen⟩
  · rintro ⟨rfl, rfl⟩
    simp [decodeExpecting, decode_encode, bind, Except.bind]

theorem length_withChecksum (version payload : Bytes) :
    (withChecksum version payload).length = version.length + payload.length + 4 := by
  simp [withChecksum, Nat.add_assoc]

end Base58Check

/-! ## Another alphabet -/

namespace Base58

/-- A character that is carried over is carried back, as long as the first alphabet repeats no
character. -/
theorem exchange?_symm {source target : Text} (ht : target.Nodup) {c d : Char}
    (h : exchange? source target c = some d) : exchange? target source d = some c := by
  obtain ⟨i, hi, hd⟩ := Option.bind_eq_some_iff.1 h
  obtain ⟨hlt, hget, -⟩ := List.idxOf?_eq_some_iff.1 hi
  obtain ⟨hlt', hget'⟩ := List.getElem?_eq_some_iff.1 hd
  refine Option.bind_eq_some_iff.2 ⟨i, ?_, ?_⟩
  · refine List.idxOf?_eq_some_iff.2 ⟨hlt', hget', fun j hj hcontra => ?_⟩
    have := (List.Nodup.getElem_inj_iff ht).1 (hcontra.trans hget'.symm)
    omega
  · exact List.getElem?_eq_some_iff.2 ⟨hlt, hget⟩

theorem transliterate_eq_ok_iff {source target s u : Text} :
    transliterate source target s = .ok u ↔
      List.Forall₂ (fun c d => exchange? source target c = some d) s u := by
  induction s generalizing u with
  | nil =>
    rw [transliterate, List.forall₂_nil_left_iff]
    exact ⟨fun h => (Except.ok.inj h).symm, fun h => congrArg _ h.symm⟩
  | cons c s ih =>
    rw [transliterate, List.forall₂_cons_left_iff]
    split
    · next h => simp [h]
    · next d h =>
      cases hs : transliterate source target s with
      | error e =>
        have hnone : ∀ u, ¬ List.Forall₂ (fun c d => exchange? source target c = some d) s u := by
          intro u hu
          rw [← ih, hs] at hu
          cases hu
        simp [Except.map, hnone]
      | ok t =>
        have ht := ih.1 hs
        constructor
        · intro hu
          cases hu
          exact ⟨d, t, h, ht, rfl⟩
        · rintro ⟨d', t', hd', ht', rfl⟩
          rw [h] at hd'
          cases hd'
          rw [← ih, hs] at ht'
          cases ht'
          rfl

/-- **What is carried over without loss is carried back.** -/
theorem transliterate_symm {source target s u : Text} (ht : target.Nodup)
    (h : transliterate source target s = .ok u) : transliterate target source u = .ok s := by
  rw [transliterate_eq_ok_iff] at h ⊢
  exact h.flip.imp fun _ _ => exchange?_symm ht

theorem nodup_digits : digits.Nodup := by decide

/-- Reading from an alphabet and writing in it undo each other. -/
theorem unmap_eq_ok_iff {alphabet s u : Text} (h : alphabet.Nodup) :
    unmap s alphabet = .ok u ↔ remap u alphabet = .ok s :=
  ⟨transliterate_symm nodup_digits, transliterate_symm h⟩

theorem exchange?_of_mem {source target : Text} {c : Char} (h : c ∈ source) :
    exchange? source target c = target[source.idxOf c]? := by
  have hidx : source.idxOf? c = some (source.idxOf c) :=
    List.findIdx?_eq_some_iff_findIdx_eq.2 ⟨List.idxOf_lt_length_of_mem h, rfl⟩
  rw [exchange?, hidx, Option.bind_some]

end Base58

namespace Ripple

theorem nodup_alphabet : alphabet.Nodup := by decide

/-- The character that stands for a digit of the standard alphabet. -/
def letterOf (c : Char) : Char := alphabet.getD (Base58.digits.idxOf c) 'r'

/-- Every digit has its place in the alphabet. -/
theorem getElem?_idxOf {c : Char} (h : c ∈ Base58.digits) :
    alphabet[Base58.digits.idxOf c]? = some (letterOf c) := by
  have hlen : Base58.digits.length = alphabet.length := by decide
  have hlt : Base58.digits.idxOf c < alphabet.length := hlen ▸ List.idxOf_lt_length_of_mem h
  rw [letterOf, List.getD_eq_getElem?_getD, List.getElem?_eq_getElem hlt, Option.getD_some]

theorem remap_of_digits {s : Text} (h : ∀ c ∈ s, c ∈ Base58.digits) :
    Base58.remap s alphabet = .ok (s.map letterOf) := by
  rw [Base58.remap, Base58.transliterate_eq_ok_iff, List.forall₂_map_right_iff, List.forall₂_same]
  intro c hc
  rw [Base58.exchange?_of_mem (h c hc), getElem?_idxOf (h c hc)]

/-- **Writing does not fail:** the text is that of Base58, character by character. -/
theorem encode_eq_ok (payload : Bytes) :
    encode payload = .ok ((Base58Check.encode accountVersion payload).map letterOf) :=
  remap_of_digits fun _ => Base58.mem_digits_of_mem_encode

theorem decode_eq_ok_iff {s : Text} {payload : Bytes} :
    decode s = .ok payload ↔ encode payload = .ok s ∧ payload.length = 20 := by
  constructor
  · intro h
    obtain ⟨standard, hs, h⟩ := bind_eq_ok_iff.1 h
    obtain ⟨rfl, hlen⟩ := Base58Check.decodeExpecting_eq_ok_iff.1 h
    exact ⟨(Base58.unmap_eq_ok_iff nodup_alphabet).1 hs, hlen⟩
  · rintro ⟨htext, hlen⟩
    rw [decode, (Base58.unmap_eq_ok_iff nodup_alphabet).2 htext]
    exact Base58Check.decodeExpecting_eq_ok_iff.2 ⟨rfl, hlen⟩

/-- The version is a zero byte, and `r` stands for zero. -/
theorem encode_eq_cons (payload : Bytes) : ∃ tail, encode payload = .ok ('r' :: tail) := by
  refine ⟨(Base58.encode (payload ++ Base58Check.checksum (accountVersion ++ payload))).map
    letterOf, ?_⟩
  rw [encode_eq_ok, Base58Check.encode, Base58Check.withChecksum, List.append_assoc]
  rw [show accountVersion ++ (payload ++ Base58Check.checksum (accountVersion ++ payload)) =
    0 :: (payload ++ Base58Check.checksum (accountVersion ++ payload)) from rfl,
    Base58.encode_zero_cons, List.map_cons]
  rfl

theorem mem_alphabet_of_mem_encode {payload : Bytes} {s : Text} (h : encode payload = .ok s)
    {c : Char} (hc : c ∈ s) : c ∈ alphabet := by
  rw [encode_eq_ok] at h
  cases h
  obtain ⟨d, hd, rfl⟩ := List.mem_map.1 hc
  exact List.mem_of_getElem? (getElem?_idxOf (Base58.mem_digits_of_mem_encode hd))

theorem length_encode_lt {payload : Bytes} {s : Text} (h : encode payload = .ok s) :
    8 * s.length < 11 * (payload.length + 5) + 8 := by
  rw [encode_eq_ok] at h
  cases h
  have := Base58.length_encode_lt (Base58Check.withChecksum accountVersion payload)
  rw [Base58Check.length_withChecksum, show accountVersion.length = 1 from rfl] at this
  rw [List.length_map, Base58Check.encode]
  omega

end Ripple

/-! ## Accounts of Tron -/

namespace Tron

/-- The version makes every account's text start with `T`. -/
theorem encode_account_eq_cons {account : Bytes} (h : account.length = 20) :
    ∃ tail, encode account = 'T' :: tail ∧ tail.length = 33 := by
  rw [encode, Base58Check.encode, Base58Check.withChecksum, List.append_assoc]
  refine Base58.encode_eq_cons (d := 26) (by decide) (by decide) (by decide) (by decide) ?_ ?_
  all_goals
    rw [List.length_append, Base58Check.length_checksum, h]
    decide

/-- The test of the first character refuses no account. -/
theorem validate_eq_ok_iff {s : Text} :
    validate s = .ok () ↔ ∃ account : Bytes, account.length = 20 ∧ s = encode account := by
  constructor
  · intro h
    obtain ⟨-, h⟩ := guard_eq_ok_iff.1 h
    obtain ⟨account, hs⟩ := map_unit_eq_ok_iff.1 h
    obtain ⟨htext, hlen⟩ := Base58Check.decodeExpecting_eq_ok_iff.1 hs
    exact ⟨account, hlen, htext⟩
  · rintro ⟨account, hlen, rfl⟩
    obtain ⟨tail, htail, -⟩ := encode_account_eq_cons hlen
    have hread : decode (encode account) = .ok account :=
      Base58Check.decodeExpecting_eq_ok_iff.2 ⟨rfl, hlen⟩
    rw [validate, hread, if_pos (by rw [htail, List.head?_cons])]
    rfl

end Tron

end CoinAddress

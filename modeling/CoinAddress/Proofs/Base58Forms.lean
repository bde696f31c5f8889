import CoinAddress.Proofs.Base58Checked

/-!
# The form of a Base58 text with a checksum

Plain Base58 writes a `1` for each zero byte in front and then the number of the other bytes in
base 58: `Base58.spelling_iff`. A version, a payload and the first bytes of their digest are one
byte string, so they have one text in this form. That text is read back, with the version cut off
at any length, and no other text is: `decode_versioned_iff_encode`.
-/

namespace CoinAddress

namespace Base58

/-- The text of a byte string in plain Base58: a `1` for each zero byte in front, and the digits of
the number that the rest denotes. Neither the rest nor its digits start with a zero. -/
inductive Spelling : Bytes → Text → Prop
  | mk (zeros : Nat) {rest : Bytes} {ds : List Nat} (hrest : rest.head? ≠ some 0)
      (hds : ds.head? ≠ some 0) (hlt : ∀ d ∈ ds, d < 58)
      (hvalue : Radix.value 58 ds = number rest) :
      Spelling (List.replicate zeros 0 ++ rest) (List.replicate zeros '1' ++ ds.map digit)

theorem Spelling.zero_cons {bs : Bytes} {s : Text} (h : Spelling bs s) :
    Spelling (0 :: bs) ('1' :: s) := by
  obtain ⟨zeros, hrest, hds, hlt, hvalue⟩ := h
  exact .mk (zeros + 1) hrest hds hlt hvalue

theorem encode_replicate_append (zeros : Nat) (rest : Bytes) :
    encode (List.replicate zeros 0 ++ rest) = List.replicate zeros '1' ++ encode rest := by
  induction zeros with
  | zero => rfl
  | succ n ih =>
    rw [List.replicate_succ, List.cons_append, encode_zero_cons, ih, List.replicate_succ,
      List.cons_append]

theorem spelling_of_head?_ne {bs : Bytes} (h : bs.head? ≠ some 0) : Spelling bs (encode bs) := by
  rw [encode_of_head?_ne h]
  exact .mk 0 h Radix.head?_digits_ne_zero (fun _ => Radix.digits_lt)
    (Radix.value_digits (by decide) _)

/-- What is written for bytes spells them. -/
theorem spelling_encode (bs : Bytes) : Spelling bs (encode bs) := by
  induction bs with
  | nil => exact spelling_of_head?_ne (by simp)
  | cons b bs ih =>
    by_cases hb : b = 0
    · subst hb
      rw [encode_zero_cons]
      exact ih.zero_cons
    · exact spelling_of_head?_ne fun h => hb (Option.some.inj h)

/-- **The encoder writes plain Base58,** and each byte string has one text in it. -/
theorem spelling_iff {bs : Bytes} {s : Text} : Spelling bs s ↔ s = encode bs := by
  constructor
  · rintro ⟨zeros, hrest, hds, hlt, hvalue⟩
    rw [encode_replicate_append, encode_of_head?_ne hrest, ← hvalue,
      Radix.digits_value (by decide) hlt hds]
  · rintro rfl
    exact spelling_encode bs

end Base58

namespace Base58Check

/-- **A text is read as a version and a payload just when it is the one that is written for them,**
whatever the length of either and however many zero bytes they start with; and what is written is
the plain Base58 of both with the first four bytes of their digest. -/
theorem decode_versioned_iff_encode (s : Text) (version payload : Bytes) :
    (∀ n, decode s n = .ok ⟨version, payload⟩ ↔
      version.length = n ∧ s = encode version payload) ∧
    (∀ k, decodeExpecting s version k = .ok payload ↔
      s = encode version payload ∧ payload.length = k) ∧
    (s = encode version payload ↔ Base58.Spelling
      (version ++ payload ++ (Sha256.doubleHash (version ++ payload)).take 4) s) := by
  refine ⟨?_, ?_, ?_⟩
  · intro n
    exact decode_eq_ok_iff
  · intro k
    exact decodeExpecting_eq_ok_iff
  · exact Base58.spelling_iff.symm

end Base58Check

end CoinAddress

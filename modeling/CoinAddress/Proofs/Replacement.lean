import CoinAddress.Proofs.CodeDistance
import CoinAddress.Proofs.Resolution
import CoinAddress.Proofs.TonErrors

/-!
# One wrong character in a text

A text in which one character is replaced by another one of its alphabet is not accepted where the
checksum is a remainder: the change is within one word of five bits, or six bits in the URL-safe
alphabet of Base64, and a remainder shows every change within a few neighbouring bits. The same
holds of a letter in the wrong case where the case is the checksum.

`Bech32.not_replaced`, `CashAddr.not_replaced`, `Ton.not_replaced` and `Evm.not_flipped` say so for
each format.
-/

namespace CoinAddress

/-! ## Replacing one character -/

/-- One character replaced by another one of an alphabet, behind some characters that stay. -/
inductive Replaced (alphabet : Text) (kept : Nat) : Text → Text → Prop
  | mk (before after : Text) {c d : Char} (hkept : kept ≤ before.length) (hne : c ≠ d)
      (hd : d ∈ alphabet) : Replaced alphabet kept (before ++ c :: after) (before ++ d :: after)

namespace Replaced

variable {alphabet head s t u : Text} {kept : Nat}

theorem of_eq (before after : Text) {c d : Char} (hs : s = before ++ c :: after)
    (ht : t = before ++ d :: after) (hkept : kept ≤ before.length) (hne : c ≠ d)
    (hd : d ∈ alphabet) : Replaced alphabet kept s t := by
  rw [hs, ht]
  exact .mk before after hkept hne hd

theorem length_eq (h : Replaced alphabet kept s t) : t.length = s.length := by
  cases h with
  | mk before after => simp

theorem ne (h : Replaced alphabet kept s t) : s ≠ t := by
  cases h with
  | mk before after hkept hne hd =>
    intro heq
    have := List.append_cancel_left heq
    rw [List.cons.injEq] at this
    exact hne this.1

theorem mem_or (h : Replaced alphabet kept s t) : ∀ c ∈ t, c ∈ s ∨ c ∈ alphabet := by
  cases h with
  | mk before after hkept hne hd =>
    intro e he
    rcases List.mem_append.1 he with he | he
    · exact .inl (List.mem_append_left _ he)
    · rcases List.mem_cons.1 he with rfl | he
      · exact .inr hd
      · exact .inl (List.mem_append_right _ (List.mem_cons_of_mem _ he))

/-- The characters that stay can be left out. -/
theorem drop_head (h : Replaced alphabet head.length (head ++ u) t) :
    ∃ u', t = head ++ u' ∧ Replaced alphabet 0 u u' := by
  generalize hs : head ++ u = s at h
  cases h with
  | mk before after hkept hne hd =>
    rcases List.append_eq_append_iff.1 hs with ⟨mid, rfl, rfl⟩ | ⟨mid, rfl, hmid⟩
    · exact ⟨_, List.append_assoc .., .mk mid after (Nat.zero_le _) hne hd⟩
    · have hnil : mid = [] := by
        rw [List.length_append] at hkept
        exact List.length_eq_zero_iff.1 (by omega)
      subst hnil
      rw [List.nil_append] at hmid
      subst hmid
      exact ⟨_, by simp, .mk [] after (Nat.zero_le _) hne hd⟩

/-- One position is no stretch. -/
theorem not_differOver {n : Nat} (hn : 0 < n) (h : Replaced alphabet kept s t) :
    ¬ DifferOver n s t := by
  cases h with
  | @mk before after c d hkept hne hd =>
    have hstretch : ¬ DifferOver n (before ++ [c] ++ after) (before ++ [d] ++ after) :=
      not_differOver_stretch (show [c].length = [d].length from rfl) hn before after
    rwa [List.append_assoc, List.append_assoc] at hstretch

end Replaced

/-! ## Cyclic codes -/

/-- Two lists of words with their checksums are not one replaced character apart. -/
theorem CyclicCode.not_replaced {g : CyclicCode} (hg : g.Sound) {target kept : Nat}
    (ht : target < 2 ^ g.residueBits) (front : Bytes) {us vs : Bytes} (hus : ∀ w ∈ us, w.toNat < 32)
    (hvs : ∀ w ∈ vs, w.toNat < 32) :
    ¬ Replaced Base32.digits kept (Base32.encode (g.withChecksum target front us))
      (Base32.encode (g.withChecksum target front vs)) := by
  intro hrep
  have hlen := hrep.length_eq
  rw [Base32.length_encode, Base32.length_encode, length_withChecksum, length_withChecksum] at hlen
  have hwide : 0 < g.checksumWords := by
    have := hg.two_le
    omega
  refine hrep.not_differOver hwide
    (differOver_encode_withChecksum hg ht front hus hvs (by omega) ?_)
  exact fun hwords => hrep.ne (congrArg Base32.encode hwords)

namespace Bech32

/-- **One wrong character behind the separator leaves no text under that human-readable part.** -/
theorem not_replaced {hrp t : Text} {us vs : Bytes} (hlow : ∀ c ∈ hrp, ¬ c.isUpper)
    (hus : ∀ w ∈ us, w.toNat < 32) (hvs : ∀ w ∈ vs, w.toNat < 32)
    (ht : t.map Char.toLower = textOf hrp vs) :
    ¬ Replaced Base32.digits (hrp.length + 1) (textOf hrp us) t := by
  intro hrep
  -- no capital comes in, so the text is read as it stands
  have hnone : ∀ c ∈ t, ¬ c.isUpper := by
    intro c hc
    rcases hrep.mem_or c hc with hc | hc
    · exact noUpper_textOf hlow hus c hc
    · exact Base32.noUpper_digits c hc
  rw [Text.map_toLower_of_noUpper hnone, textOf_eq] at ht
  rw [textOf_eq, show hrp.length + 1 = (hrp ++ ['1']).length by simp] at hrep
  obtain ⟨rest, rfl, hrest⟩ := hrep.drop_head
  rw [List.append_cancel_left ht] at hrest
  exact CyclicCode.not_replaced CyclicCode.sound_bech32 (by decide) _ hus hvs hrest

end Bech32

namespace CashAddr

/-- **One wrong character behind the label leaves no address under that label.** -/
theorem not_replaced {label t : Text} {version version' : UInt8} {hash hash' : Bytes}
    (hlow : ∀ c ∈ label, ¬ c.isUpper)
    (ht : t.map Char.toLower = label ++ ':' :: bodyOf label version' hash' ∨
      t.map Char.toLower = bodyOf label version' hash') :
    ¬ Replaced Base32.digits (label.length + 1) (label ++ ':' :: bodyOf label version hash) t := by
  intro hrep
  have hnone : ∀ c ∈ t, ¬ c.isUpper := by
    intro c hc
    rcases hrep.mem_or c hc with hc | hc
    · exact noUpper_address hlow version hash c hc
    · exact Base32.noUpper_digits c hc
  rw [Text.map_toLower_of_noUpper hnone] at ht
  rw [show label ++ ':' :: bodyOf label version hash =
    (label ++ [':']) ++ bodyOf label version hash by simp,
    show label.length + 1 = (label ++ [':']).length by simp] at hrep
  obtain ⟨rest, rfl, hrest⟩ := hrep.drop_head
  have hbody : rest = bodyOf label version' hash' := by
    rcases ht with ht | ht
    · have htext : (label ++ [':']) ++ rest = (label ++ [':']) ++ bodyOf label version' hash' := by
        simpa using ht
      exact List.append_cancel_left htext
    · refine absurd ?_ (colon_not_mem_bodyOf label version' hash')
      rw [← ht]
      simp
  rw [hbody] at hrest
  exact CyclicCode.not_replaced CyclicCode.sound_cashAddr (by decide) _ Bech32.lt_of_mem_words
    Bech32.lt_of_mem_words hrest

end CashAddr

/-! ## The checksum of TON -/

namespace Ton

/-- In characters of the URL-safe alphabet, an account has no text but the one written for it. -/
theorem eq_toText_of_parse {a : Address} {t : Text}
    (hmem : ∀ c ∈ t, c ∈ Base64.Alphabet.urlSafe.digits) (h : parse t = .ok a) :
    t = a.toText := by
  have hcolon : ':' ∉ t := fun hc => by
    have := hmem _ hc
    revert this
    decide
  obtain ⟨-, htext | htext⟩ := parse_friendly_iff.1 ⟨h, hcolon⟩
  · exact htext
  · rw [htext, Address.toStandardText]
    refine (List.map_congr_left fun c hc => ?_).trans (List.map_id _)
    -- a character that is exchanged would have left the alphabet
    have hin := hmem (Base64.toStandard c) (htext ▸ List.mem_map_of_mem hc)
    rw [Base64.toStandard] at hin ⊢
    by_cases hminus : c = '-'
    · rw [if_pos hminus] at hin
      exact absurd hin (by decide)
    · rw [if_neg hminus] at hin ⊢
      by_cases hunder : c = '_'
      · rw [if_pos hunder] at hin
        exact absurd hin (by decide)
      · exact if_neg hunder

/-- **One wrong character leaves no address.** -/
theorem not_replaced {a b : Address} {t : Text} (ht : parse t = .ok b) :
    ¬ Replaced Base64.Alphabet.urlSafe.digits 0 a.toText t := by
  intro hrep
  have hmem : ∀ c ∈ t, c ∈ Base64.Alphabet.urlSafe.digits := fun c hc =>
    (hrep.mem_or c hc).elim Base64.mem_digits_of_mem_encode id
  obtain rfl := eq_toText_of_parse hmem ht
  refine hrep.not_differOver (show 0 < 2 by decide) (differOver_texts fun hvalues => hrep.ne ?_)
  exact congrArg (List.map (Base64.digit .urlSafe)) hvalues

end Ton

/-! ## The case of a letter -/

namespace Evm

/-- The letter in the other case. -/
def flipCase (c : Char) : Char := if c.isUpper then c.toLower else c.toUpper

theorem toLower_flipCase (c : Char) : (flipCase c).toLower = c.toLower := by
  rw [flipCase]
  split
  · exact Text.toLower_of_not_isUpper (Text.not_isUpper_toLower c)
  · exact Text.toLower_toUpper c

theorem flipCase_ne {c : Char} (h : c.isAlpha) : flipCase c ≠ c := by
  intro heq
  have hplace := congrArg Char.toNat heq
  by_cases hu : c.isUpper
  · rw [flipCase, if_pos hu, Text.toNat_toLower, if_pos hu] at hplace
    omega
  · have hl : c.isLower := (Text.isAlpha_iff.1 h).resolve_left hu
    have hrange := Text.isLower_iff.1 hl
    rw [flipCase, if_neg hu, Text.toNat_toUpper, if_pos hl] at hplace
    omega

/-- One letter of the digits in the other case, with letters of both cases in the outcome. -/
inductive Flipped : Text → Text → Prop
  | mk (before after : Text) {c : Char} (hkept : 2 ≤ before.length) (hc : c.isAlpha)
      (hmixed : Text.mixedCase ((before ++ flipCase c :: after).drop 2)) :
      Flipped (before ++ c :: after) (before ++ flipCase c :: after)

/-- **A letter in the wrong case leaves no address,** as long as both cases occur. -/
theorem not_flipped {account : Bytes} {t : Text} (ht : validate t = .ok ()) :
    ¬ Flipped (checksumText account) t := by
  intro hflip
  obtain ⟨other, digits, -, hdigits, htext, hcase⟩ := validate_eq_ok_iff.1 ht
  have hdrop : t.drop 2 = digits := by
    rcases digitsOf_eq_ok_iff.1 hdigits with rfl | rfl <;> rfl
  generalize hs : checksumText account = s at hflip
  cases hflip with
  | @mk before after c hkept hc hmixed =>
    have hwritten := congrArg (List.drop 2) hs
    rw [List.drop_append_of_le_length hkept] at hwritten hdrop hmixed
    have hsmall : digits.map Char.toLower = Hex.encode account := by
      rw [← map_toLower_checksumDigits account, show checksumDigits account = _ from hwritten,
        ← hdrop]
      simp [toLower_flipCase]
    -- the digits are those of the same account, so the checksum asks for the same letters
    have hsame : other = account := Hex.encode_injective (htext.symm.trans hsmall)
    rw [← hdrop, hmixed, hsame, show checksumDigits account = _ from hwritten] at hcase
    rcases hcase with hcase | hcase
    · cases hcase
    · have hletter := List.append_cancel_left hcase
      rw [List.cons.injEq] at hletter
      exact flipCase_ne hc hletter.1

end Evm

end CoinAddress

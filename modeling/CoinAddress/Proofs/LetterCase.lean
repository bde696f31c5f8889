import CoinAddress.Text.Basic

/-!
# Characters of ASCII texts

Several address formats take a text in either letter case but not in both. What they read is the
text in small letters, so most facts here are about texts that have the same small letters. Where
characters stand for symbols, a text determines the symbols that can be read back.

The two cases of a letter are 32 places apart, `toNat_toLower` and `toNat_toUpper`. All that is
said about the case of a character follows from its place.
-/

namespace CoinAddress.Text

/-! ## Letters -/

theorem isUpper_iff {c : Char} : c.isUpper ↔ 65 ≤ c.toNat ∧ c.toNat ≤ 90 := decide_eq_true_iff

theorem isLower_iff {c : Char} : c.isLower ↔ 97 ≤ c.toNat ∧ c.toNat ≤ 122 :=
  Bool.and_eq_true_iff.trans (and_congr decide_eq_true_iff decide_eq_true_iff)

theorem isAlpha_iff {c : Char} : c.isAlpha ↔ c.isUpper ∨ c.isLower := Bool.or_eq_true_iff

/-- A capital letter stands 32 places in front of the small one. -/
theorem toNat_toLower (c : Char) :
    c.toLower.toNat = if c.isUpper then c.toNat + 32 else c.toNat := by
  unfold Char.toLower
  split
  · next h =>
    have hrange : 65 ≤ c.toNat ∧ c.toNat ≤ 90 := h
    have hlt : c.toNat + 32 < 2 ^ 32 := by omega
    rw [if_pos (isUpper_iff.2 hrange)]
    exact (UInt32.toNat_add c.val 32).trans (Nat.mod_eq_of_lt hlt)
  · next h => rw [if_neg (mt isUpper_iff.1 h)]

/-- A small letter stands 32 places behind the capital one. -/
theorem toNat_toUpper (c : Char) :
    c.toUpper.toNat = if c.isLower then c.toNat - 32 else c.toNat := by
  unfold Char.toUpper
  split
  · next h =>
    have hrange : 97 ≤ c.toNat ∧ c.toNat ≤ 122 := h
    -- the distance is added as a word that wraps around
    have hwrap : (c.toNat + 4294967264) % 2 ^ 32 = c.toNat - 32 := by omega
    rw [if_pos (isLower_iff.2 hrange)]
    exact (UInt32.toNat_add c.val 4294967264).trans hwrap
  · next h => rw [if_neg (mt isLower_iff.1 h)]

theorem not_isLower_of_isUpper {c : Char} (h : c.isUpper) : ¬ c.isLower := by
  rw [isUpper_iff] at h
  rw [isLower_iff]
  omega

theorem toLower_of_not_isUpper {c : Char} (h : ¬ c.isUpper) : c.toLower = c :=
  Char.toNat_inj.1 (by rw [toNat_toLower, if_neg h])

theorem toUpper_of_not_isLower {c : Char} (h : ¬ c.isLower) : c.toUpper = c :=
  Char.toNat_inj.1 (by rw [toNat_toUpper, if_neg h])

theorem not_isUpper_toLower (c : Char) : ¬ c.toLower.isUpper := by
  rw [isUpper_iff, toNat_toLower]
  grind [isUpper_iff]

theorem not_isLower_toUpper (c : Char) : ¬ c.toUpper.isLower := by
  rw [isLower_iff, toNat_toUpper]
  grind [isLower_iff]

theorem toUpper_toLower (c : Char) : c.toLower.toUpper = c.toUpper := by
  rw [← Char.toNat_inj]
  grind [isUpper_iff, isLower_iff, toNat_toLower, toNat_toUpper]

theorem toLower_toUpper (c : Char) : c.toUpper.toLower = c.toLower := by
  rw [← Char.toNat_inj]
  grind [isUpper_iff, isLower_iff, toNat_toLower, toNat_toUpper]

/-! ## Small letters -/

/-- Whether a text has letters of both cases. -/
def mixedCase (s : Text) : Bool := s.any Char.isLower && s.any Char.isUpper

theorem mixedCase_of_noUpper {s : Text} (h : ∀ c ∈ s, ¬ c.isUpper) : mixedCase s = false := by
  have hnone : s.any Char.isUpper = false := by simpa using h
  rw [mixedCase, hnone, Bool.and_false]

theorem map_toLower_of_noUpper {s : Text} (h : ∀ c ∈ s, ¬ c.isUpper) : s.map Char.toLower = s :=
  (List.map_congr_left fun c hc => toLower_of_not_isUpper (h c hc)).trans (List.map_id s)

/-- No capital letter is left in small letters. -/
theorem noUpper_map_toLower (s : Text) : ∀ c ∈ s.map Char.toLower, ¬ c.isUpper := by
  intro c hc
  obtain ⟨d, -, rfl⟩ := List.mem_map.1 hc
  exact not_isUpper_toLower d

/-- A character that is no letter is the small form of itself only. -/
theorem toLower_eq_iff_of_not_isAlpha {c d : Char} (hd : d.isAlpha = false) :
    c.toLower = d ↔ c = d := by
  have hletter : ¬ (d.isUpper ∨ d.isLower) := by
    rw [← isAlpha_iff, hd]
    exact Bool.false_ne_true
  constructor
  · rintro rfl
    refine (toLower_of_not_isUpper fun hu => hletter (.inr ?_)).symm
    have hrange := isUpper_iff.1 hu
    rw [isLower_iff, toNat_toLower, if_pos hu]
    omega
  · rintro rfl
    exact toLower_of_not_isUpper fun hu => hletter (.inl hu)

/-- The printable characters of ASCII keep to themselves. -/
theorem printable_toLower_iff {c : Char} :
    33 ≤ c.toLower.toNat ∧ c.toLower.toNat ≤ 126 ↔ 33 ≤ c.toNat ∧ c.toNat ≤ 126 := by
  by_cases hu : c.isUpper
  · have hrange := isUpper_iff.1 hu
    rw [toNat_toLower, if_pos hu]
    omega
  · rw [toLower_of_not_isUpper hu]

/-- A character of ASCII takes one byte. -/
theorem byteSize_of_ascii {s : Text} (h : s.all isAscii = true) : s.byteSize = s.length := by
  induction s with
  | nil => rfl
  | cons c s ih =>
    rw [List.all_cons, Bool.and_eq_true, isAscii, decide_eq_true_eq] at h
    have hc : c.utf8Size = 1 := Char.utf8Size_eq_one_iff.2 (Nat.le_of_lt_succ h.1)
    rw [byteSize_cons, hc, ih h.2, List.length_cons, Nat.add_comm]

theorem byteSize_of_printable {s : Text} (h : ∀ c ∈ s, 33 ≤ c.toNat ∧ c.toNat ≤ 126) :
    s.byteSize = s.length := by
  refine byteSize_of_ascii (List.all_eq_true.2 fun c hc => ?_)
  rw [isAscii, decide_eq_true_eq]
  exact Nat.lt_of_le_of_lt (h c hc).2 (by decide)

/-! ## Capitals -/

theorem map_toUpper_of_noLower {s : Text} (h : ∀ c ∈ s, ¬ c.isLower) : s.map Char.toUpper = s :=
  (List.map_congr_left fun c hc => toUpper_of_not_isLower (h c hc)).trans (List.map_id s)

theorem mixedCase_map_toUpper (s : Text) : mixedCase (s.map Char.toUpper) = false := by
  have hnone : (s.map Char.toUpper).any Char.isLower = false := by
    rw [List.any_map, List.any_eq_false]
    exact fun c _ => not_isLower_toUpper c
  rw [mixedCase, hnone, Bool.false_and]

/-- Capital letters do not depend on the case that a text was in. -/
theorem map_toUpper_map_toLower (s : Text) :
    (s.map Char.toLower).map Char.toUpper = s.map Char.toUpper := by
  rw [List.map_map]
  exact List.map_congr_left fun c _ => toUpper_toLower c

theorem map_toLower_map_toUpper (s : Text) :
    (s.map Char.toUpper).map Char.toLower = s.map Char.toLower := by
  rw [List.map_map]
  exact List.map_congr_left fun c _ => toLower_toUpper c

/-- A text in one letter case is its small letters or the capitals of these. -/
theorem lower_eq_iff {s t : Text} (ht : ∀ c ∈ t, ¬ c.isUpper) :
    mixedCase s = false ∧ s.map Char.toLower = t ↔ s = t ∨ s = t.map Char.toUpper := by
  constructor
  · rintro ⟨hcase, rfl⟩
    rw [map_toUpper_map_toLower]
    rw [mixedCase, Bool.and_eq_false_iff] at hcase
    rcases hcase with hlower | hupper
    · exact .inr (map_toUpper_of_noLower (by simpa using hlower)).symm
    · exact .inl (map_toLower_of_noUpper (by simpa using hupper)).symm
  · rintro (rfl | rfl)
    · exact ⟨mixedCase_of_noUpper ht, map_toLower_of_noUpper ht⟩
    · refine ⟨mixedCase_map_toUpper t, ?_⟩
      rw [map_toLower_map_toUpper, map_toLower_of_noUpper ht]

/-! ## Characters for symbols -/

/-- Lists with the same image are the same if the image can be read back. -/
theorem eq_of_map_eq {α : Type} {f : α → Char} {g : Char → Option α} {us vs : List α}
    (hus : ∀ x ∈ us, g (f x) = some x) (hvs : ∀ x ∈ vs, g (f x) = some x)
    (h : us.map f = vs.map f) : us = vs := by
  have hread := congrArg (List.map g) h
  rw [List.map_map, List.map_map, List.map_congr_left (f := g ∘ f) (g := some) hus,
    List.map_congr_left (f := g ∘ f) (g := some) hvs] at hread
  exact (List.map_inj_right fun _ _ => Option.some.inj).1 hread

end CoinAddress.Text

import CoinAddress.Proofs.Differences
import CoinAddress.Proofs.LetterCase

/-!
# Texts that are garbled in one place

A typing error, two characters that change places, an unreadable part: some consecutive characters
of a text are exchanged for others. A text has the same symbols in either letter case, so to write
all of it in the other one is no such change. The small letters of the two texts then differ in that
place only, `Garbled.not_differOver`, and do differ if the outcome is in one letter case.
-/

namespace CoinAddress

/-- At most so many consecutive characters of a text are exchanged for as many others, and the
outcome is another text, not the same one written in small letters or in capitals throughout. -/
inductive Garbled (width : Nat) : Text → Text → Prop
  | mk (before after : Text) {us vs : Text} (hlen : us.length = vs.length)
      (hwidth : us.length ≤ width)
      (hsmall : before ++ vs ++ after ≠ (before ++ us ++ after).map Char.toLower)
      (hcapital : before ++ vs ++ after ≠ (before ++ us ++ after).map Char.toUpper) :
      Garbled width (before ++ us ++ after) (before ++ vs ++ after)

namespace Garbled

variable {width : Nat} {s t : Text}

theorem length_eq (h : Garbled width s t) : s.length = t.length := by
  cases h with
  | mk before after hlen => simp [hlen]

/-- A garbled text in one letter case has other letters. -/
theorem lower_ne (h : Garbled width s t) (ht : Text.mixedCase t = false) :
    s.map Char.toLower ≠ t.map Char.toLower := by
  intro hsame
  have hforms := (Text.lower_eq_iff (Text.noUpper_map_toLower s)).1 ⟨ht, hsame.symm⟩
  rw [Text.map_toUpper_map_toLower] at hforms
  cases h with
  | mk before after hlen hwidth hsmall hcapital => exact hforms.elim hsmall hcapital

theorem not_differOver (h : Garbled width s t) :
    ¬ DifferOver width (s.map Char.toLower) (t.map Char.toLower) := by
  cases h with
  | @mk before after us vs hlen hwidth =>
    simp only [List.map_append]
    exact not_differOver_stretch (by simpa using hlen) (by simpa using hwidth) _ _

end Garbled

end CoinAddress

import CoinAddress.Text.Blank
import Mathlib.Data.List.TakeWhile

/-!
# What trimming leaves of a text

A text is white space, then its trimmed part, then white space, and the trimmed part neither starts
nor ends with any: `trim_eq_iff`. So trimming loses white space only, and leaves a text as it is
that has none at its ends.
-/

namespace CoinAddress.Text

/-- A text with no white space at either end. -/
structure Trimmed (s : Text) : Prop where
  head : ∀ c ∈ s.head?, isBlank c = false
  last : ∀ c ∈ s.getLast?, isBlank c = false

theorem dropWhile_of_head {s : Text} (h : ∀ c ∈ s.head?, isBlank c = false) :
    s.dropWhile isBlank = s := by
  cases s with
  | nil => rfl
  | cons c s => simp [h c rfl]

/-- White space in front does not matter. -/
theorem trimStart_append {a s : Text} (h : ∀ c ∈ a, isBlank c = true) :
    trimStart (a ++ s) = trimStart s :=
  List.dropWhile_append_of_pos h

theorem trimEnd_append {s b : Text} (h : ∀ c ∈ b, isBlank c = true) :
    trimEnd (s ++ b) = trimEnd s := by
  rw [trimEnd, List.reverse_append, List.dropWhile_append_of_pos (by simpa using h), trimEnd]

theorem trimEnd_of_last {s : Text} (h : ∀ c ∈ s.getLast?, isBlank c = false) : trimEnd s = s := by
  rw [trimEnd, dropWhile_of_head (by simpa using h), List.reverse_reverse]

/-- A text that is trimmed stays as it is. -/
theorem trim_self {s : Text} (h : Trimmed s) : trim s = s := by
  rw [trim, trimStart, dropWhile_of_head h.head, trimEnd_of_last h.last]

theorem exists_trimStart (s : Text) : ∃ a, s = a ++ trimStart s ∧ (∀ c ∈ a, isBlank c = true) ∧
    ∀ c ∈ (trimStart s).head?, isBlank c = false := by
  refine ⟨s.takeWhile isBlank, List.takeWhile_append_dropWhile.symm,
    fun c hc => List.mem_takeWhile_imp hc, fun c hc => ?_⟩
  have hhead := List.head?_dropWhile_not isBlank s
  rw [show (s.dropWhile isBlank).head? = some c from hc] at hhead
  exact hhead

theorem exists_trimEnd (s : Text) : ∃ b, s = trimEnd s ++ b ∧ (∀ c ∈ b, isBlank c = true) ∧
    ∀ c ∈ (trimEnd s).getLast?, isBlank c = false := by
  obtain ⟨a, hsplit, hblank, hhead⟩ := exists_trimStart s.reverse
  refine ⟨a.reverse, ?_, by simpa using hblank, ?_⟩
  · rw [trimEnd, ← List.reverse_append]
    exact List.reverse_eq_iff.1 hsplit
  · rw [trimEnd, List.getLast?_reverse]
    exact hhead

/-- **The trimmed part of a text is what stands between the white space at its ends.** -/
theorem trim_eq_iff {s t : Text} : trim s = t ↔ Trimmed t ∧ ∃ a b, s = a ++ t ++ b ∧
    (∀ c ∈ a, isBlank c = true) ∧ ∀ c ∈ b, isBlank c = true := by
  constructor
  · rintro rfl
    obtain ⟨a, hs, ha, hhead⟩ := exists_trimStart s
    obtain ⟨b, ht, hb, hlast⟩ := exists_trimEnd (trimStart s)
    refine ⟨⟨fun c hc => hhead c ?_, hlast⟩, a, b, ?_, ha, hb⟩
    · -- what is cut off at the end leaves the first character, if one is left at all
      rw [ht, List.head?_append, Option.mem_def,
        show (trimEnd (trimStart s)).head? = some c from hc, Option.some_or]
    · rw [List.append_assoc, trim, ← ht]
      exact hs
  · rintro ⟨ht, a, b, rfl, ha, hb⟩
    rw [trim, List.append_assoc, trimStart_append ha]
    by_cases hnil : t = []
    · subst hnil
      rw [List.nil_append, ← List.append_nil b, trimStart_append hb]
      rfl
    · obtain ⟨c, t, rfl⟩ := List.exists_cons_of_ne_nil hnil
      rw [trimStart, dropWhile_of_head (by simpa using ht.head), trimEnd_append hb,
        trimEnd_of_last ht.last]

/-- A text without white space is left as it is. -/
theorem trim_of_forall {s : Text} (h : ∀ c ∈ s, isBlank c = false) : trim s = s :=
  trim_self ⟨fun c hc => h c (List.mem_of_head? hc), fun c hc => h c (List.mem_of_getLast? hc)⟩

/-- Trimming drops nothing but white space. -/
theorem mem_trim_or_isBlank {s : Text} {c : Char} (h : c ∈ s) : c ∈ trim s ∨ isBlank c = true := by
  obtain ⟨-, a, b, hs, ha, hb⟩ := trim_eq_iff.1 (rfl : trim s = trim s)
  rw [hs, List.mem_append, List.mem_append] at h
  rcases h with (h | h) | h
  · exact .inr (ha c h)
  · exact .inl h
  · exact .inr (hb c h)

end CoinAddress.Text

import CoinAddress.Json.Token
import CoinAddress.Proofs.Outcome
import Mathlib.Data.List.TakeWhile

/-!
# How numbers are written in JSON

A number is a whole part, which starts with a zero only if it is one, then perhaps a fraction and
perhaps an exponent, and a minus may stand in front: `IsNumber`. Reading takes the longest number at
the start of a text. So a number is read as a whole just when what follows cannot belong to it, and
what is read is always a number: `number?_append` and `isNumber_of_number?`.
-/

namespace CoinAddress.Json

/-- One or more digits. -/
def IsDigits (s : Text) : Prop := s ≠ [] ∧ ∀ c ∈ s, c.isDigit = true

/-- A zero, or digits that do not start with one. -/
def IsWhole (s : Text) : Prop := s = ['0'] ∨ IsDigits s ∧ s.head? ≠ some '0'

/-- A whole part starts with a digit. -/
theorem IsWhole.exists_cons {s : Text} (h : IsWhole s) :
    ∃ c t, s = c :: t ∧ c.isDigit = true := by
  rcases h with rfl | ⟨⟨hne, hdigits⟩, -⟩
  · exact ⟨'0', [], rfl, rfl⟩
  · obtain ⟨c, t, rfl⟩ := List.exists_cons_of_ne_nil hne
    exact ⟨c, t, rfl, hdigits c List.mem_cons_self⟩

/-- Nothing, or a point and digits. -/
def IsFraction (s : Text) : Prop := s = [] ∨ ∃ ds, s = '.' :: ds ∧ IsDigits ds

/-- Nothing, or the letter of either case, at most one sign, and digits. -/
def IsExponent (s : Text) : Prop :=
  s = [] ∨ ∃ letter sign ds, s = letter :: (sign ++ ds) ∧ (letter = 'e' ∨ letter = 'E') ∧
    (sign = [] ∨ sign = ['+'] ∨ sign = ['-']) ∧ IsDigits ds

/-- The texts that are numbers. -/
def IsNumber (s : Text) : Prop :=
  ∃ sign whole fraction exponent, s = sign ++ (whole ++ (fraction ++ exponent)) ∧
    (sign = [] ∨ sign = ['-']) ∧ IsWhole whole ∧ IsFraction fraction ∧ IsExponent exponent

/-- A number starts with a minus or with a digit. -/
theorem IsNumber.exists_cons {s : Text} (h : IsNumber s) :
    ∃ c t, s = c :: t ∧ (c = '-' ∨ c.isDigit = true) := by
  obtain ⟨sign, whole, fraction, exponent, rfl, rfl | rfl, hwhole, -, -⟩ := h
  · obtain ⟨c, t, rfl, hc⟩ := hwhole.exists_cons
    exact ⟨c, _, rfl, .inr hc⟩
  · exact ⟨'-', _, rfl, .inl rfl⟩

/-- Whether a number goes on with this character. -/
def continuesNumber (c : Char) : Bool := c.isDigit || c = '.' || c = 'e' || c = 'E'

/-! ## A number is read as a whole -/

/-- Digits are read up to the first character that is none. -/
theorem someDigits?_append {ds rest : Text} (h : IsDigits ds)
    (hrest : ∀ c ∈ rest.head?, c.isDigit = false) : someDigits? (ds ++ rest) = some (ds, rest) := by
  have hstop : rest.takeWhile Char.isDigit = [] ∧ rest.dropWhile Char.isDigit = rest := by
    cases rest with
    | nil => exact ⟨rfl, rfl⟩
    | cons c rest => simp [hrest c rfl]
  rw [someDigits?, List.takeWhile_append_of_pos h.2, List.dropWhile_append_of_pos h.2, hstop.1,
    hstop.2, List.append_nil]
  exact if_neg h.1

/-- Behind a zero no digit is read, which is why other digits must not start with one. -/
theorem wholePart?_append {whole rest : Text} (h : IsWhole whole)
    (hrest : ∀ c ∈ rest.head?, c.isDigit = false) :
    wholePart? (whole ++ rest) = some (whole, rest) := by
  rcases h with rfl | ⟨hdigits, hhead⟩
  · rfl
  · rw [wholePart?]
    · exact someDigits?_append hdigits hrest
    · rintro s hs
      obtain ⟨c, whole, rfl⟩ := List.exists_cons_of_ne_nil hdigits.1
      cases hs
      exact hhead rfl

theorem fractionPart?_append {fraction rest : Text} (h : IsFraction fraction)
    (hrest : ∀ c ∈ rest.head?, c.isDigit = false ∧ c ≠ '.') :
    fractionPart? (fraction ++ rest) = some (fraction, rest) := by
  rcases h with rfl | ⟨ds, rfl, hds⟩
  · rw [List.nil_append, fractionPart?]
    rintro s rfl
    exact (hrest '.' rfl).2 rfl
  · rw [List.cons_append, fractionPart?, someDigits?_append hds fun c hc => (hrest c hc).1]
    rfl

theorem exponentPart?_append {exponent rest : Text} (h : IsExponent exponent)
    (hrest : ∀ c ∈ rest.head?, c.isDigit = false ∧ c ≠ 'e' ∧ c ≠ 'E') :
    exponentPart? (exponent ++ rest) = some (exponent, rest) := by
  rcases h with rfl | ⟨letter, sign, ds, rfl, hletter, hsign, hds⟩
  · cases rest with
    | nil => rfl
    | cons c rest =>
      have hc := (hrest c rfl).2
      simp [exponentPart?, hc]
  · have hread := someDigits?_append hds fun c hc => (hrest c hc).1
    have hhead : ∀ c ∈ ds.head?, c ≠ '+' ∧ c ≠ '-' := by
      rintro c hc
      have hdigit := hds.2 c (List.mem_of_head? hc)
      constructor
      · rintro rfl
        cases hdigit
      · rintro rfl
        cases hdigit
    obtain ⟨d, ds, rfl⟩ := List.exists_cons_of_ne_nil hds.1
    have hd := hhead d rfl
    rw [List.cons_append] at hread
    rcases hsign with rfl | rfl | rfl
    · simp [exponentPart?, hletter, hd, hread]
    · simp [exponentPart?, hletter, hread]
    · simp [exponentPart?, hletter, hread]

/-- Each part ends where the next one starts: none of them goes on with the first character of
one that follows. -/
theorem unsigned?_append {whole fraction exponent rest : Text} (hwhole : IsWhole whole)
    (hfraction : IsFraction fraction) (hexponent : IsExponent exponent)
    (hrest : ∀ c ∈ rest.head?, continuesNumber c = false) :
    unsigned? (whole ++ (fraction ++ (exponent ++ rest))) =
      some (whole ++ fraction ++ exponent, rest) := by
  have hend : ∀ c ∈ rest.head?, c.isDigit = false ∧ c ≠ '.' ∧ c ≠ 'e' ∧ c ≠ 'E' := by
    intro c hc
    simpa [continuesNumber, and_assoc] using hrest c hc
  have hafterFraction : ∀ c ∈ (exponent ++ rest).head?, c.isDigit = false ∧ c ≠ '.' := by
    rcases hexponent with rfl | ⟨letter, sign, ds, rfl, hletter, -, -⟩
    · exact fun c hc => ⟨(hend c hc).1, (hend c hc).2.1⟩
    · rintro c hc
      cases hc
      rcases hletter with rfl | rfl <;> decide
  have hafterWhole : ∀ c ∈ (fraction ++ (exponent ++ rest)).head?, c.isDigit = false := by
    rcases hfraction with rfl | ⟨ds, rfl, -⟩
    · exact fun c hc => (hafterFraction c hc).1
    · rintro c hc
      cases hc
      rfl
  simp only [unsigned?, wholePart?_append hwhole hafterWhole,
    fractionPart?_append hfraction hafterFraction,
    exponentPart?_append hexponent fun c hc => ⟨(hend c hc).1, (hend c hc).2.2⟩,
    Option.bind_eq_bind, Option.bind_some]

/-- A number in front of a text that does not continue it is read as a whole. -/
theorem number?_append {s rest : Text} (h : IsNumber s)
    (hrest : ∀ c ∈ rest.head?, continuesNumber c = false) :
    number? (s ++ rest) = some (s, rest) := by
  obtain ⟨sign, whole, fraction, exponent, rfl, hsign, hwhole, hfraction, hexponent⟩ := h
  have hread := unsigned?_append hwhole hfraction hexponent hrest
  rcases hsign with rfl | rfl
  · rw [List.nil_append, List.append_assoc, List.append_assoc, number?, hread, List.append_assoc]
    -- a whole part starts with a digit, so it is not taken for the sign
    obtain ⟨c, whole, rfl, hdigit⟩ := hwhole.exists_cons
    rintro s hs
    cases hs
    cases hdigit
  · simp only [List.cons_append, List.nil_append, List.append_assoc, number?]
    rw [hread, List.append_assoc]
    rfl

/-! ## What is read is a number -/

/-- Nothing of a text is lost when digits are cut off at its start. -/
theorem isDigits_of_someDigits? {s ds rest : Text} (h : someDigits? s = some (ds, rest)) :
    s = ds ++ rest ∧ IsDigits ds := by
  simp only [someDigits?] at h
  split_ifs at h with hne
  cases h
  exact ⟨List.takeWhile_append_dropWhile.symm, hne, fun c hc => List.mem_takeWhile_imp hc⟩

theorem isWhole_of_wholePart? {s whole rest : Text} (h : wholePart? s = some (whole, rest)) :
    s = whole ++ rest ∧ IsWhole whole := by
  unfold wholePart? at h
  split at h
  · cases h
    exact ⟨rfl, .inl rfl⟩
  · next hzero =>
    obtain ⟨rfl, hdigits⟩ := isDigits_of_someDigits? h
    refine ⟨rfl, .inr ⟨hdigits, fun hhead => ?_⟩⟩
    obtain ⟨ds, rfl⟩ := List.head?_eq_some_iff.1 hhead
    exact hzero _ rfl

theorem isFraction_of_fractionPart? {s fraction rest : Text}
    (h : fractionPart? s = some (fraction, rest)) : s = fraction ++ rest ∧ IsFraction fraction := by
  unfold fractionPart? at h
  split at h
  · obtain ⟨⟨ds, r⟩, hds, heq⟩ := Option.map_eq_some_iff.1 h
    cases heq
    obtain ⟨rfl, hdigits⟩ := isDigits_of_someDigits? hds
    exact ⟨rfl, .inr ⟨ds, rfl, hdigits⟩⟩
  · cases h
    exact ⟨rfl, .inl rfl⟩

theorem isExponent_of_exponentPart? {s exponent rest : Text}
    (h : exponentPart? s = some (exponent, rest)) : s = exponent ++ rest ∧ IsExponent exponent := by
  unfold exponentPart? at h
  split at h
  · next letter s =>
    split_ifs at h with hletter
    · split at h
      · next d s =>
        split_ifs at h with hsign
        · obtain ⟨⟨ds, r⟩, hds, heq⟩ := Option.map_eq_some_iff.1 h
          cases heq
          obtain ⟨rfl, hdigits⟩ := isDigits_of_someDigits? hds
          exact ⟨rfl, .inr ⟨letter, [d], ds, rfl, hletter, by simpa using hsign, hdigits⟩⟩
        · obtain ⟨⟨ds, r⟩, hds, heq⟩ := Option.map_eq_some_iff.1 h
          cases heq
          obtain ⟨hs, hdigits⟩ := isDigits_of_someDigits? hds
          exact ⟨by rw [hs]; rfl, .inr ⟨letter, [], ds, rfl, hletter, .inl rfl, hdigits⟩⟩
      · cases h
    · cases h
      exact ⟨rfl, .inl rfl⟩
  · cases h
    exact ⟨rfl, .inl rfl⟩

/-- What is read without a sign has the three parts of a number. -/
theorem exists_parts_of_unsigned? {s ds rest : Text} (h : unsigned? s = some (ds, rest)) :
    s = ds ++ rest ∧ ∃ whole fraction exponent, ds = whole ++ (fraction ++ exponent) ∧
      IsWhole whole ∧ IsFraction fraction ∧ IsExponent exponent := by
  simp only [unsigned?, Option.bind_eq_bind, Option.bind_eq_some_iff, Prod.exists] at h
  obtain ⟨whole, s1, h1, fraction, s2, h2, exponent, s3, h3, h4⟩ := h
  cases h4
  obtain ⟨rfl, hwhole⟩ := isWhole_of_wholePart? h1
  obtain ⟨rfl, hfraction⟩ := isFraction_of_fractionPart? h2
  obtain ⟨rfl, hexponent⟩ := isExponent_of_exponentPart? h3
  exact ⟨by simp, whole, fraction, exponent, by simp, hwhole, hfraction, hexponent⟩

/-- What is read is a number, and the rest of the text follows it. -/
theorem isNumber_of_number? {s ds rest : Text} (h : number? s = some (ds, rest)) :
    s = ds ++ rest ∧ IsNumber ds := by
  unfold number? at h
  split at h
  · obtain ⟨⟨ds, r⟩, hds, heq⟩ := Option.map_eq_some_iff.1 h
    cases heq
    obtain ⟨rfl, whole, fraction, exponent, rfl, hparts⟩ := exists_parts_of_unsigned? hds
    exact ⟨rfl, ['-'], whole, fraction, exponent, rfl, .inr rfl, hparts⟩
  · obtain ⟨rfl, whole, fraction, exponent, rfl, hparts⟩ := exists_parts_of_unsigned? h
    exact ⟨rfl, [], whole, fraction, exponent, rfl, .inl rfl, hparts⟩

end CoinAddress.Json

import CoinAddress.Proofs.Outcome
import CoinAddress.Text.Integer

/-!
# Which texts are numbers

A number is spelled as an optional sign and one or more digits: `Numeral`. Leading zeros are
allowed, and so is a minus in front of zero. Reading 32 bits takes just the spellings of the
numbers that fit: `readInt32_eq_ok_iff`.

A natural number takes no minus: `NatNumeral`. Reading it up to a bound is
`readNat_eq_ok_iff`, and it is written as one of its spellings: `natNumeral_ofNat`.
-/

namespace CoinAddress.Text

/-! ## Signed numbers -/

/-- The spellings of an integer: one or more digits, of which it is the value, behind an optional
sign. -/
inductive Numeral : Text → Int → Prop
  | plain {digits : Text} (hne : digits ≠ []) (h : digits.all Char.isDigit = true) :
      Numeral digits (digitsValue 0 digits)
  | plus {digits : Text} (hne : digits ≠ []) (h : digits.all Char.isDigit = true) :
      Numeral ('+' :: digits) (digitsValue 0 digits)
  | minus {digits : Text} (hne : digits ≠ []) (h : digits.all Char.isDigit = true) :
      Numeral ('-' :: digits) (-digitsValue 0 digits)

/-- Reading digits under a sign, when the bound is the last number that fits with that sign. The
bound is on the digits, so the number that comes out never wraps around. -/
theorem map_readDigits_eq_ok_iff {bound : Nat} {f : Int → Int}
    (hfits : ∀ n : Nat, n ≤ bound ↔ -0x80000000 ≤ f n ∧ f n < 0x80000000)
    {digits : Text} {w : Int32} :
    ((readDigits bound 0 digits >>= fun n => pure (n : Int)).map fun n => Int32.ofInt (f n)) =
      .ok w ↔ digits.all Char.isDigit = true ∧ f (digitsValue 0 digits) = w.toInt := by
  rw [map_eq_ok_iff]
  constructor
  · rintro ⟨i, hi, rfl⟩
    -- the value of the digits is a natural number until the sign is put before it
    obtain ⟨n, hread, hcast⟩ := bind_eq_ok_iff.1 hi
    cases hcast
    obtain ⟨hall, rfl, hle⟩ := (readDigits_eq_ok_iff (Nat.zero_le bound)).1 hread
    obtain ⟨hlow, hhigh⟩ := (hfits _).1 hle
    exact ⟨hall, (Int32.toInt_ofInt_of_le hlow hhigh).symm⟩
  · rintro ⟨hall, hvalue⟩
    have hle : digitsValue 0 digits ≤ bound := by
      rw [hfits, hvalue]
      exact ⟨w.le_toInt, w.toInt_lt⟩
    have hread := (readDigits_eq_ok_iff (Nat.zero_le bound)).2 ⟨hall, rfl, hle⟩
    refine ⟨_, bind_eq_ok_iff.2 ⟨_, hread, rfl⟩, ?_⟩
    rw [hvalue, Int32.ofInt_toInt]

/-- Digits without a sign are not taken for a sign. -/
theorem ne_cons_of_digits {digits s : Text} {c : Char} (h : digits.all Char.isDigit = true)
    (hc : c.isDigit = false) : digits ≠ c :: s := by
  rintro rfl
  rw [List.all_cons, hc, Bool.false_and] at h
  cases h

/-- **A text is read as a number of 32 bits just when it spells the number.** -/
theorem readInt32_eq_ok_iff {s : Text} {w : Int32} : readInt32 s = .ok w ↔ Numeral s w.toInt := by
  have hplus : ∀ n : Nat, n ≤ 0x7fffffff ↔ -0x80000000 ≤ (n : Int) ∧ (n : Int) < 0x80000000 :=
    fun n => by omega
  have hminus : ∀ n : Nat, n ≤ 0x80000000 ↔ -0x80000000 ≤ -(n : Int) ∧ -(n : Int) < 0x80000000 :=
    fun n => by omega
  constructor
  · intro h
    unfold readInt32 at h
    split at h
    · cases h
    · cases h
    · cases h
    · next digits hne =>
      obtain ⟨hall, hvalue⟩ := (map_readDigits_eq_ok_iff hplus).1 h
      rw [← hvalue]
      exact .plus hne hall
    · next digits hne =>
      obtain ⟨hall, hvalue⟩ := (map_readDigits_eq_ok_iff hminus).1 h
      rw [← hvalue]
      exact .minus hne hall
    · next hne _ _ _ _ =>
      obtain ⟨hall, hvalue⟩ := (map_readDigits_eq_ok_iff hplus).1 h
      rw [← hvalue]
      exact .plain hne hall
  · intro h
    generalize hn : w.toInt = n at h
    cases h with
    | plain hne hall =>
      rw [readInt32]
      · exact (map_readDigits_eq_ok_iff hplus).2 ⟨hall, hn.symm⟩
      · exact hne
      · exact ne_cons_of_digits hall (by decide)
      · exact ne_cons_of_digits hall (by decide)
      · exact fun _ => ne_cons_of_digits hall (by decide)
      · exact fun _ => ne_cons_of_digits hall (by decide)
    | @plus digits hne hall =>
      rw [readInt32]
      · exact (map_readDigits_eq_ok_iff hplus).2 ⟨hall, hn.symm⟩
      · exact hne
    | @minus digits hne hall =>
      rw [readInt32]
      · exact (map_readDigits_eq_ok_iff hminus).2 ⟨hall, hn.symm⟩
      · exact hne

example : readInt32 "-01".toList = .ok (-1) := by rfl

/-! ## Natural numbers -/

/-- The spellings of a natural number: one or more digits, of which it is the value, behind at most
a plus. -/
inductive NatNumeral : Text → Nat → Prop
  | plain {digits : Text} (hne : digits ≠ []) (h : digits.all Char.isDigit = true) :
      NatNumeral digits (digitsValue 0 digits)
  | plus {digits : Text} (hne : digits ≠ []) (h : digits.all Char.isDigit = true) :
      NatNumeral ('+' :: digits) (digitsValue 0 digits)

/-- **A text is read as a natural number just when it spells the number and the number is within the
bound.** -/
theorem readNat_eq_ok_iff {bound n : Nat} {s : Text} :
    readNat bound s = .ok n ↔ NatNumeral s n ∧ n ≤ bound := by
  have hdigits : ∀ {digits : Text}, readDigits bound 0 digits = .ok n ↔
      digits.all Char.isDigit = true ∧ digitsValue 0 digits = n ∧ n ≤ bound :=
    readDigits_eq_ok_iff (Nat.zero_le bound)
  constructor
  · intro h
    unfold readNat at h
    split at h
    · cases h
    · cases h
    · next digits hne =>
      obtain ⟨hall, rfl, hle⟩ := hdigits.1 h
      exact ⟨.plus hne hall, hle⟩
    · next hne _ _ =>
      obtain ⟨hall, rfl, hle⟩ := hdigits.1 h
      exact ⟨.plain hne hall, hle⟩
  · rintro ⟨hs, hle⟩
    cases hs with
    | plain hne hall =>
      rw [readNat]
      · exact hdigits.2 ⟨hall, rfl, hle⟩
      · exact hne
      · exact ne_cons_of_digits hall (by decide)
      · exact fun _ => ne_cons_of_digits hall (by decide)
    | plus hne hall =>
      rw [readNat]
      · exact hdigits.2 ⟨hall, rfl, hle⟩
      · exact hne

/-- A spelling ends with a digit. -/
theorem NatNumeral.getLast {s : Text} {n : Nat} (h : NatNumeral s n) :
    ∃ c, s.getLast? = some c ∧ c.isDigit = true := by
  have hlast : ∀ {digits : Text}, digits ≠ [] → digits.all Char.isDigit = true →
      ∃ c, digits.getLast? = some c ∧ c.isDigit = true := fun hne hall =>
    ⟨_, List.getLast?_eq_some_getLast hne, List.all_eq_true.1 hall _ (List.getLast_mem hne)⟩
  cases h with
  | plain hne hall => exact hlast hne hall
  | plus hne hall =>
    rw [List.getLast?_cons_of_ne_nil hne]
    exact hlast hne hall

theorem NatNumeral.eq_or_isDigit {s : Text} {n : Nat} (h : NatNumeral s n) {c : Char}
    (hc : c ∈ s) : c = '+' ∨ c.isDigit = true := by
  cases h with
  | plain hne hall => exact .inr (List.all_eq_true.1 hall c hc)
  | plus hne hall => exact (List.mem_cons.1 hc).imp_right (List.all_eq_true.1 hall c)

theorem all_isDigit_ofNat (n : Nat) : (ofNat n).all Char.isDigit = true :=
  List.all_eq_true.2 fun _ => Nat.isDigit_of_mem_toDigits (by decide) (by decide)

theorem digitsValue_ofNat (n : Nat) : digitsValue 0 (ofNat n) = n := by
  have hfold : digitsValue 0 (ofNat n) = Nat.ofDigitChars 10 (ofNat n) 0 := by
    simp only [digitsValue, Nat.ofDigitChars, Nat.mul_comm]
  rw [hfold, ofNat, Nat.ofDigitChars_ten_toDigits]

theorem natNumeral_ofNat (n : Nat) : NatNumeral (ofNat n) n := by
  have hne : ofNat n ≠ [] := Nat.toDigits_ne_nil
  have h := NatNumeral.plain hne (all_isDigit_ofNat n)
  rwa [digitsValue_ofNat] at h

end CoinAddress.Text

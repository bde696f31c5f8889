import CoinAddress.Text.Basic

/-!
# Changing the base of a digit string

A digit string, most significant digit first, is turned into the digit string of the same number
in another base. Leading zeros do not count towards the number, so they are carried over one for
one: the result has as many of them as the input.

That makes the change of base reversible: `recode_recode`.
-/

namespace CoinAddress.Radix

/-- The number with these digits. -/
def value (base : Nat) (ds : List Nat) : Nat := ds.foldl (fun n d => n * base + d) 0

/-- The digits of a number, without leading zeros; zero has none. -/
def digits (base n : Nat) : List Nat :=
  if 2 ≤ base ∧ n ≠ 0 then digits base (n / base) ++ [n % base] else []
termination_by n
decreasing_by exact Nat.div_lt_self (by omega) (by omega)

/-- How many zeros the digit string starts with. -/
def leadingZeros (ds : List Nat) : Nat := (ds.takeWhile (· == 0)).length

/-- The digits of the same number in another base, after as many zeros as before. -/
def recode (source target : Nat) (ds : List Nat) : List Nat :=
  List.replicate (leadingZeros ds) 0 ++ digits target (value source ds)

theorem value_append_singleton (base : Nat) (ds : List Nat) (d : Nat) :
    value base (ds ++ [d]) = value base ds * base + d := by
  simp [value]

theorem value_replicate_zero_append (base k : Nat) (ds : List Nat) :
    value base (List.replicate k 0 ++ ds) = value base ds := by
  induction k with
  | zero => rfl
  | succ k ih =>
    rw [← ih]
    simp [value, List.replicate_succ]

/-- The digits of a number denote it. -/
theorem value_digits {base : Nat} (hb : 2 ≤ base) (n : Nat) : value base (digits base n) = n := by
  induction n using Nat.strongRecOn with
  | _ n ih =>
    rw [digits]
    split
    · next h =>
      rw [value_append_singleton, ih (n / base) (Nat.div_lt_self (by omega) (by omega))]
      exact Nat.div_add_mod' n base
    · next h =>
      have : n = 0 := by omega
      simp [this, value]

theorem digits_lt {base n d : Nat} (h : d ∈ digits base n) : d < base := by
  induction n using Nat.strongRecOn with
  | _ n ih =>
    rw [digits] at h
    split at h
    · next hn =>
      rcases List.mem_append.1 h with h | h
      · exact ih (n / base) (Nat.div_lt_self (by omega) (by omega)) h
      · rw [List.mem_singleton.1 h]
        exact Nat.mod_lt _ (by omega)
    · simp at h

/-- A number's digits do not start with a zero. -/
theorem head?_digits_ne_zero {base n : Nat} : (digits base n).head? ≠ some 0 := by
  induction n using Nat.strongRecOn with
  | _ n ih =>
    rw [digits]
    split
    · next hn =>
      have hlt := Nat.div_lt_self (n := n) (k := base) (by omega) (by omega)
      by_cases hz : n / base = 0
      · rw [digits, if_neg (by simp [hz])]
        have : n < base := (Nat.div_eq_zero_iff_lt (by omega)).1 hz
        simp only [List.nil_append, List.head?_cons, ne_eq, Option.some.injEq]
        rw [Nat.mod_eq_of_lt this]
        exact hn.2
      · have hne : digits base (n / base) ≠ [] := by
          rw [digits, if_pos ⟨hn.1, hz⟩]
          simp
        rw [List.head?_append, Option.or_of_isSome (by simpa [List.isSome_head?] using hne)]
        exact ih _ hlt
    · simp

theorem leadingZeros_replicate_append {k : Nat} {ds : List Nat} (h : ds.head? ≠ some 0) :
    leadingZeros (List.replicate k 0 ++ ds) = k := by
  induction k with
  | zero =>
    cases ds with
    | nil => rfl
    | cons d ds => simp_all [leadingZeros]
  | succ k ih =>
    simp only [leadingZeros, List.replicate_succ, List.cons_append, List.takeWhile_cons,
      BEq.rfl, if_true, List.length_cons] at ih ⊢
    rw [ih]

/-- Digits below the base that do not start with a zero are the digits of their number. -/
theorem digits_value {base : Nat} (hb : 2 ≤ base) {ds : List Nat} (hlt : ∀ d ∈ ds, d < base)
    (hhead : ds.head? ≠ some 0) : digits base (value base ds) = ds := by
  induction hn : ds.length generalizing ds with
  | zero =>
    have : ds = [] := List.length_eq_zero_iff.1 hn
    subst this
    simp [value, digits]
  | succ n ih =>
    obtain ⟨es, d, rfl⟩ : ∃ es d, ds = es ++ [d] :=
      ⟨ds.dropLast, ds.getLast (by rintro rfl; simp at hn), (List.dropLast_concat_getLast _).symm⟩
    have hd : d < base := hlt d (by simp)
    have hes : digits base (value base es) = es := by
      refine ih (fun x hx => hlt x (by simp [hx])) ?_ (by simpa using hn)
      cases es with
      | nil => simp
      | cons e es => simpa using hhead
    rw [value_append_singleton, digits]
    have hne : value base es * base + d ≠ 0 := by
      cases es with
      | nil => simp_all [value]
      | cons e es =>
        intro hzero
        have hv : value base (e :: es) = 0 := by
          rcases Nat.mul_eq_zero.1 (Nat.eq_zero_of_add_eq_zero_right hzero) with h | h
          · exact h
          · omega
        rw [hv, digits] at hes
        simp at hes
    rw [if_pos ⟨hb, hne⟩, Nat.mul_comm, Nat.mul_add_div (by omega), Nat.div_eq_of_lt hd,
      Nat.add_zero, hes, Nat.mul_add_mod, Nat.mod_eq_of_lt hd]

theorem eq_replicate_append (ds : List Nat) :
    ds = List.replicate (leadingZeros ds) 0 ++ ds.dropWhile (· == 0) := by
  induction ds with
  | nil => rfl
  | cons d ds ih =>
    by_cases h : d = 0
    · subst h
      simp only [leadingZeros, List.takeWhile_cons, BEq.rfl, if_true, List.length_cons,
        List.replicate_succ, List.cons_append, List.dropWhile_cons]
      exact congrArg (0 :: ·) ih
    · simp [leadingZeros, h]

theorem head?_dropWhile_ne_zero (ds : List Nat) : (ds.dropWhile (· == 0)).head? ≠ some 0 := by
  induction ds with
  | nil => simp
  | cons d ds ih =>
    by_cases h : d = 0
    · simpa [h] using ih
    · simp [h]

/-- **Changing the base and changing it back gives the same digits.** -/
theorem recode_recode {source target : Nat} (hs : 2 ≤ source) (ht : 2 ≤ target) {ds : List Nat}
    (hlt : ∀ d ∈ ds, d < source) : recode target source (recode source target ds) = ds := by
  rw [recode, recode, leadingZeros_replicate_append head?_digits_ne_zero,
    value_replicate_zero_append, value_digits ht]
  conv => rhs; rw [eq_replicate_append ds]
  congr 1
  conv => lhs; rw [eq_replicate_append ds, value_replicate_zero_append]
  exact digits_value hs (fun d hd => hlt d ((List.dropWhile_suffix _).subset hd))
    (head?_dropWhile_ne_zero ds)

/-- The new digits are below the new base. -/
theorem recode_lt {source target d : Nat} {ds : List Nat} (ht : 2 ≤ target)
    (h : d ∈ recode source target ds) : d < target := by
  rcases List.mem_append.1 h with h | h
  · rw [(List.mem_replicate.1 h).2]
    omega
  · exact digits_lt h

end CoinAddress.Radix

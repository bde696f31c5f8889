import Mathlib.Data.Nat.Bitwise
import Mathlib.Logic.Function.Iterate

/-!
# Shift registers

A checksum that is a remainder takes a symbol in by shifting the remainder and then changing it by
an exclusive or. The shift keeps exclusive or and loses nothing; that alone says what such a
checksum detects.

* `run_xor`: a remainder and the symbols that follow act apart.
* `eq_of_run_eq`: two inputs that differ in one stretch only and have the same remainder differ
  there by stretches that have the same remainder on their own.
* `iterate_shift_of_run_eq`: if these differ in their first and last symbol only, then the change of
  the first one is shifted to that of the last.
-/

namespace CoinAddress

/-- A linear map of the numbers of some bits that loses nothing. -/
structure ShiftRegister where
  width : Nat
  shift : Nat → Nat
  shift_xor : ∀ a b, shift (a ^^^ b) = shift a ^^^ shift b
  shift_lt : ∀ r, r < 2 ^ width → shift r < 2 ^ width
  eq_zero_of_shift : ∀ r, r < 2 ^ width → shift r = 0 → r = 0

namespace ShiftRegister

variable {α : Type} {R : ShiftRegister} {enter : α → Nat}

/-- The content after some symbols, each of which enters as a number. -/
def run (R : ShiftRegister) (enter : α → Nat) (r : Nat) (ws : List α) : Nat :=
  ws.foldl (fun r w => R.shift r ^^^ enter w) r

theorem run_cons (R : ShiftRegister) (enter : α → Nat) (r : Nat) (w : α) (ws : List α) :
    R.run enter r (w :: ws) = R.run enter (R.shift r ^^^ enter w) ws := rfl

theorem run_append (R : ShiftRegister) (enter : α → Nat) (r : Nat) (us ws : List α) :
    R.run enter r (us ++ ws) = R.run enter (R.run enter r us) ws := List.foldl_append

/-- A content and what follows act apart: the one is shifted, the other starts from zero. -/
theorem run_xor (R : ShiftRegister) (enter : α → Nat) (a b : Nat) (ws : List α) :
    R.run enter (a ^^^ b) ws = R.shift^[ws.length] a ^^^ R.run enter b ws := by
  induction ws generalizing a b with
  | nil => rfl
  | cons w ws ih =>
    rw [run_cons, R.shift_xor, Nat.xor_assoc, ih, run_cons, List.length_cons,
      Function.iterate_succ_apply]

/-- What is left of the state at the start is added to what the words lead to from zero. -/
theorem run_eq (R : ShiftRegister) (enter : α → Nat) (r : Nat) (ws : List α) :
    R.run enter r ws = R.shift^[ws.length] r ^^^ R.run enter 0 ws := by
  rw [← run_xor, Nat.xor_zero]

/-- The state keeps within the width. -/
theorem run_lt (henter : ∀ w, enter w < 2 ^ R.width) {r : Nat} (hr : r < 2 ^ R.width)
    (ws : List α) : R.run enter r ws < 2 ^ R.width := by
  induction ws generalizing r with
  | nil => exact hr
  | cons w ws ih => exact ih (Nat.xor_lt_two_pow (R.shift_lt r hr) (henter w))

theorem iterate_shift_xor (R : ShiftRegister) (k a b : Nat) :
    R.shift^[k] (a ^^^ b) = R.shift^[k] a ^^^ R.shift^[k] b := by
  induction k generalizing a b with
  | zero => rfl
  | succ k ih =>
    rw [Function.iterate_succ_apply, R.shift_xor, ih, ← Function.iterate_succ_apply,
      ← Function.iterate_succ_apply]

theorem shift_zero (R : ShiftRegister) : R.shift 0 = 0 := by
  have h := R.shift_xor 0 0
  rwa [Nat.xor_self, Nat.xor_self] at h

/-- No shift loses anything of the state. -/
theorem shift_injective {a b : Nat} (ha : a < 2 ^ R.width) (hb : b < 2 ^ R.width)
    (h : R.shift a = R.shift b) : a = b := by
  refine Nat.xor_eq_zero_iff.1 (R.eq_zero_of_shift _ (Nat.xor_lt_two_pow ha hb) ?_)
  rw [R.shift_xor, h, Nat.xor_self]

theorem iterate_shift_injective {k a b : Nat} (ha : a < 2 ^ R.width) (hb : b < 2 ^ R.width)
    (h : R.shift^[k] a = R.shift^[k] b) : a = b := by
  induction k generalizing a b with
  | zero => exact h
  | succ k ih =>
    rw [Function.iterate_succ_apply, Function.iterate_succ_apply] at h
    exact shift_injective ha hb (ih (R.shift_lt a ha) (R.shift_lt b hb) h)

theorem run_injective {a b : Nat} (ha : a < 2 ^ R.width) (hb : b < 2 ^ R.width) {ws : List α}
    (h : R.run enter a ws = R.run enter b ws) : a = b := by
  rw [run_eq, run_eq R enter b, Nat.xor_comm, Nat.xor_comm (R.shift^[ws.length] b)] at h
  exact iterate_shift_injective ha hb (Nat.xor_right_inj.1 h)

/-- **What stands before and behind a change does not hide it.** -/
theorem eq_of_run_eq (henter : ∀ w, enter w < 2 ^ R.width) {r : Nat} (hr : r < 2 ^ R.width)
    {before us ws after : List α} (hlen : us.length = ws.length)
    (h : R.run enter r (before ++ us ++ after) = R.run enter r (before ++ ws ++ after)) :
    R.run enter 0 us = R.run enter 0 ws := by
  rw [run_append, run_append, run_append, run_append] at h
  have hbefore := run_lt henter hr before
  have hmid := run_injective (run_lt henter hbefore us) (run_lt henter hbefore ws) h
  rw [run_eq, run_eq R enter _ ws, hlen] at hmid
  exact Nat.xor_right_inj.1 hmid

/-- **Two changes hide each other** only where the first one is shifted to the second. -/
theorem iterate_shift_of_run_eq {x x' y y' : α} {mid : List α}
    (h : R.run enter 0 (x :: mid ++ [y]) = R.run enter 0 (x' :: mid ++ [y'])) :
    R.shift^[mid.length + 1] (enter x ^^^ enter x') = enter y ^^^ enter y' := by
  have hrun : ∀ x y, R.run enter 0 (x :: mid ++ [y]) =
      R.shift^[mid.length + 1] (enter x) ^^^ R.shift (R.run enter 0 mid) ^^^ enter y := by
    intro x y
    have hfirst : R.run enter 0 (x :: mid) =
        R.shift^[mid.length] (enter x) ^^^ R.run enter 0 mid := by
      rw [run_cons, R.shift_zero, Nat.zero_xor, run_eq]
    rw [run_append, hfirst, run_cons, R.shift_xor, ← Function.iterate_succ_apply' R.shift]
    rfl
  rw [hrun, hrun] at h
  rw [iterate_shift_xor]
  generalize R.shift^[mid.length + 1] (enter x) = a at *
  generalize R.shift^[mid.length + 1] (enter x') = b at *
  generalize R.shift (R.run enter 0 mid) = c at *
  -- what stands between the two symbols is in both contents and cancels
  have hzero : a ^^^ b ^^^ (enter y ^^^ enter y') ^^^ (c ^^^ c) = 0 := by
    rw [show a ^^^ b ^^^ (enter y ^^^ enter y') ^^^ (c ^^^ c) =
      a ^^^ c ^^^ enter y ^^^ (b ^^^ c ^^^ enter y') by ac_rfl, h, Nat.xor_self]
  rw [Nat.xor_self, Nat.xor_zero] at hzero
  exact Nat.xor_eq_zero_iff.1 hzero

end ShiftRegister

end CoinAddress

import CoinAddress.Text.Basic

/-!
# Reading integers of bounded width

A number is an optional sign and one or more ASCII digits; leading zeros are allowed. The digits
are read from the left, and the first fault met wins: a character that is no digit, or the digit
with which the number passes its bound.

A sign alone counts as a character that is no digit. Only signed numbers may carry a minus.
-/

namespace CoinAddress.Text

/-- Why a text is not a number of the width asked for. -/
inductive IntegerFault where
  | empty
  | invalidDigit
  | tooLarge
  deriving DecidableEq, Repr

/-- The wording of an integer fault. -/
def IntegerFault.message : IntegerFault → Text
  | .empty => "cannot parse integer from empty string".toList
  | .invalidDigit => "invalid digit found in string".toList
  | .tooLarge => "number too large to fit in target type".toList

/-- Reads the rest of a number whose digits so far have the value `value`. -/
def readDigits (bound value : Nat) : Text → Except IntegerFault Nat
  | [] => .ok value
  | c :: s =>
    if c.isDigit then
      let next := value * 10 + (c.toNat - '0'.toNat)
      if next ≤ bound then readDigits bound next s else .error .tooLarge
    else .error .invalidDigit

/-- Reads an unsigned number of at most `bound`. -/
def readNat (bound : Nat) : Text → Except IntegerFault Nat
  | [] => .error .empty
  | ['+'] => .error .invalidDigit
  | '+' :: s => readDigits bound 0 s
  | s => readDigits bound 0 s

/-- Reads a signed number of 32 bits. -/
def readInt32 : Text → Except IntegerFault Int32
  | [] => .error .empty
  | ['+'] | ['-'] => .error .invalidDigit
  | '+' :: s => (readDigits 0x7fffffff 0 s).map fun n => Int32.ofInt n
  | '-' :: s => (readDigits 0x80000000 0 s).map fun n => Int32.ofInt (-n)
  | s => (readDigits 0x7fffffff 0 s).map fun n => Int32.ofInt n

/-- The value of a digit text after a value already read. -/
def digitsValue (value : Nat) (s : Text) : Nat :=
  s.foldl (fun v c => v * 10 + (c.toNat - '0'.toNat)) value

theorem le_digitsValue (v : Nat) (s : Text) : v ≤ digitsValue v s := by
  induction s generalizing v with
  | nil => exact Nat.le_refl v
  | cons c s ih =>
    refine Nat.le_trans ?_ (ih (v * 10 + (c.toNat - '0'.toNat)))
    omega

/-- Reading digits succeeds exactly on digits whose value stays within the bound. -/
theorem readDigits_eq_ok_iff {bound v n : Nat} {s : Text} (hv : v ≤ bound) :
    readDigits bound v s = .ok n ↔
      s.all Char.isDigit = true ∧ digitsValue v s = n ∧ n ≤ bound := by
  induction s generalizing v with
  | nil =>
    simp only [readDigits, Except.ok.injEq, List.all_nil, true_and, digitsValue, List.foldl_nil]
    exact ⟨fun h => ⟨h, h ▸ hv⟩, fun h => h.1⟩
  | cons c s ih =>
    have hd : digitsValue v (c :: s) = digitsValue (v * 10 + (c.toNat - '0'.toNat)) s := rfl
    rw [readDigits, hd, List.all_cons]
    by_cases hc : c.isDigit = true
    · simp only [hc, if_true, Bool.true_and]
      split
      · next hle => exact ih hle
      · next hgt =>
        have hle := le_digitsValue (v * 10 + (c.toNat - '0'.toNat)) s
        refine iff_of_false (by simp) ?_
        rintro ⟨-, rfl, h⟩
        omega
    · simp [hc]

end CoinAddress.Text

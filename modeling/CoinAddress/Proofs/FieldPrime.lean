import CoinAddress.Proofs.NumberBytes
import Mathlib.NumberTheory.LegendreSymbol.Basic
import Mathlib.NumberTheory.LucasPrimality
import Mathlib.Tactic.NormNum.Prime

/-!
# Square roots of coordinates

The modulus of the coordinates is a prime, `prime_fieldPrime`. A number is shown to be one by
Lucas's test: an element of the group modulo the number has the full order. That takes the primes
that divide the number less one, and they are shown to be primes in the same way, down to numbers of
five digits.

Modulo a prime that is 3 modulo 4, the power that is computed for a missing coordinate is a root of
every square: `powMod_square`.
-/

namespace CoinAddress.Secp256k1

/-! ## Lucas's test -/

/-- A number, an element of the group modulo it, and the prime factors of the number less one. -/
structure LucasTest where
  number : Nat
  element : Nat
  factors : List Nat

namespace LucasTest

/-- Whether the factors are known primes and the element has the full order. -/
def passes (known : List Nat) (t : LucasTest) : Bool :=
  decide (2 ≤ t.number) && t.factors.all (known.contains ·) && t.factors.prod == t.number - 1 &&
    powMod t.element (t.number - 1) t.number == 1 &&
    t.factors.all fun q => powMod t.element ((t.number - 1) / q) t.number != 1

/-- Whether each test passes, where the numbers of those in front of it are known primes, too. -/
def allPass (known : List Nat) : List LucasTest → Bool
  | [] => true
  | t :: ts => t.passes known && allPass (t.number :: known) ts

theorem cast_pow_eq_one_iff {n : Nat} (hn : 2 ≤ n) (a k : Nat) :
    (a : ZMod n) ^ k = 1 ↔ powMod a k n = 1 := by
  rw [powMod_eq, ← Nat.cast_pow, ← Nat.cast_one, ZMod.natCast_eq_natCast_iff',
    Nat.mod_eq_of_lt (show 1 < n by omega)]

/-- A number is prime if it passes a test whose factors are primes. -/
theorem prime_of_passes {known : List Nat} (hknown : ∀ q ∈ known, q.Prime) {t : LucasTest}
    (h : t.passes known) : t.number.Prime := by
  simp only [passes, Bool.and_eq_true, decide_eq_true_eq, List.all_eq_true, List.contains_iff_mem,
    beq_iff_eq, bne_iff_ne] at h
  obtain ⟨⟨⟨⟨htwo, hfactors⟩, hprod⟩, hone⟩, hne⟩ := h
  refine lucas_primality t.number t.element ((cast_pow_eq_one_iff htwo _ _).2 hone) ?_
  intro q hq hdvd hpow
  -- a prime that divides the product is one of the factors
  rw [← hprod] at hdvd
  obtain ⟨f, hf, hqf⟩ := (Prime.dvd_prod_iff hq.prime).1 hdvd
  obtain rfl := (Nat.prime_dvd_prime_iff_eq hq (hknown f (hfactors f hf))).1 hqf
  exact hne q hf ((cast_pow_eq_one_iff htwo _ _).1 hpow)

theorem prime_of_allPass {known : List Nat} (hknown : ∀ q ∈ known, q.Prime)
    {ts : List LucasTest} (h : allPass known ts) : ∀ t ∈ ts, t.number.Prime := by
  induction ts generalizing known with
  | nil => simp
  | cons t ts ih =>
    obtain ⟨ht, hts⟩ := Bool.and_eq_true_iff.1 h
    have hprime := prime_of_passes hknown ht
    exact List.forall_mem_cons.2 ⟨hprime, ih (List.forall_mem_cons.2 ⟨hprime, hknown⟩) hts⟩

end LucasTest

/-! ## The modulus -/

/-- The factors that are left to trial division. -/
def smallPrimes : List Nat :=
  [2, 3, 5, 7, 11, 29, 31, 53, 971, 1373, 1627, 2621, 2657, 4423, 5323, 7723, 13441, 20113, 24809,
    41201, 96557]

theorem prime_of_mem_smallPrimes : ∀ q ∈ smallPrimes, q.Prime := by
  norm_num [smallPrimes]

/-- The tests of the larger factors, and in the end that of the modulus. -/
def fieldPrimeTests : List LucasTest :=
  [⟨1206781, 10, [2, 2, 3, 5, 20113]⟩,
   ⟨7240687, 3, [2, 3, 1206781]⟩,
   ⟨107590001, 3, [2, 2, 2, 2, 5, 5, 5, 5, 7, 29, 53]⟩,
   ⟨255515944373312847190720520512484175977, 3,
     [2, 2, 2, 7, 7, 11, 1627, 2657, 4423, 41201, 96557, 7240687, 107590001]⟩,
   ⟨13331831, 13, [2, 5, 971, 1373]⟩,
   ⟨173378833005251801, 6, [2, 2, 2, 5, 5, 2621, 24809, 13331831]⟩,
   ⟨22149492674086928081353, 5, [2, 2, 2, 3, 5323, 173378833005251801]⟩,
   ⟨132896956044521568488119, 6, [2, 3, 22149492674086928081353]⟩,
   ⟨205115282021455665897114700593932402728804164701536103180137503955397371, 10,
     [2, 3, 5, 29, 29, 31, 7723, 132896956044521568488119,
       255515944373312847190720520512484175977]⟩,
   ⟨fieldPrime, 3,
     [2, 3, 7, 13441,
       205115282021455665897114700593932402728804164701536103180137503955397371]⟩]

theorem allPass_fieldPrimeTests : LucasTest.allPass smallPrimes fieldPrimeTests := by
  decide +kernel

/-- **The modulus of the coordinates is a prime.** -/
theorem prime_fieldPrime : fieldPrime.Prime :=
  LucasTest.prime_of_allPass prime_of_mem_smallPrimes allPass_fieldPrimeTests _
    (List.getLast_mem (l := fieldPrimeTests) (List.cons_ne_nil _ _))

instance : Fact fieldPrime.Prime := ⟨prime_fieldPrime⟩

/-! ## Roots -/

/-- The power that is tried is a root of a square, up to its sign. -/
theorem pow_mul_self (y : ZMod fieldPrime) :
    (y * y) ^ ((fieldPrime + 1) / 4) = y ∨ (y * y) ^ ((fieldPrime + 1) / 4) = -y := by
  have hexp : (fieldPrime + 1) / 4 * 2 = fieldPrime / 2 + 1 := by decide
  rw [← pow_two, ← pow_mul, mul_comm, hexp, pow_succ]
  by_cases hy : y = 0
  · simp [hy]
  · rcases ZMod.pow_div_two_eq_neg_one_or_one fieldPrime hy with h | h
    · simp [h]
    · simp [h]

/-- **The root that is computed for the square of a coordinate** is that coordinate or what is left
of the modulus without it. -/
theorem powMod_square {y : Nat} (hy : y < fieldPrime) :
    powMod (y * y % fieldPrime) ((fieldPrime + 1) / 4) fieldPrime = y ∨
      0 < y ∧ powMod (y * y % fieldPrime) ((fieldPrime + 1) / 4) fieldPrime = fieldPrime - y := by
  have hlt : powMod (y * y % fieldPrime) ((fieldPrime + 1) / 4) fieldPrime < fieldPrime := by
    rw [powMod_eq]
    exact Nat.mod_lt _ (by decide)
  have hcast : (powMod (y * y % fieldPrime) ((fieldPrime + 1) / 4) fieldPrime : ZMod fieldPrime) =
      ((y : ZMod fieldPrime) * y) ^ ((fieldPrime + 1) / 4) := by
    rw [powMod_eq, ZMod.natCast_mod, Nat.cast_pow, ZMod.natCast_mod, Nat.cast_mul]
  generalize powMod (y * y % fieldPrime) ((fieldPrime + 1) / 4) fieldPrime = r at hlt hcast ⊢
  rcases pow_mul_self (y : ZMod fieldPrime) with h | h
  · left
    rw [h, ZMod.natCast_eq_natCast_iff', Nat.mod_eq_of_lt hlt, Nat.mod_eq_of_lt hy] at hcast
    exact hcast
  · -- the two add up to a multiple of the modulus, and to less than twice the modulus
    have hsum : ((r + y : Nat) : ZMod fieldPrime) = 0 := by
      rw [Nat.cast_add, hcast, h, neg_add_cancel]
    obtain ⟨k, hk⟩ := (ZMod.natCast_eq_zero_iff _ _).1 hsum
    have hk2 : k < 2 := by
      by_contra hge
      have := Nat.mul_le_mul_left fieldPrime (Nat.le_of_not_lt hge)
      omega
    interval_cases k
    · left
      omega
    · rcases Nat.eq_zero_or_pos y with hzero | hpos
      · omega
      · right
        omega

end CoinAddress.Secp256k1

import CoinAddress.Base58.Alphabet
import CoinAddress.Proofs.Outcome
import CoinAddress.Ss58
import Mathlib.Algebra.Ring.Nat
import Mathlib.Tactic.GCongr.Core

/-!
# Which texts are Base58

Reading undoes writing and nothing else: `decode_eq_ok_iff` for plain Base58 and
`decodeExpecting_eq_ok_iff` with a version and a checksum. What a text starts with and how long it
is follows from the size of the number it spells: `encode_eq_cons`.
-/

namespace CoinAddress.Radix

/-! ## Size of a number and its digits -/

theorem value_foldl (base n : Nat) (ds : List Nat) :
    ds.foldl (fun n d => n * base + d) n = n * base ^ ds.length + value base ds := by
  induction ds generalizing n with
  | nil => simp [value]
  | cons d ds ih =>
    have hcons : value base (d :: ds) = d * base ^ ds.length + value base ds := by
      rw [value, List.foldl_cons, ih, Nat.zero_mul, Nat.zero_add]
    rw [List.foldl_cons, ih, hcons, List.length_cons, Nat.pow_succ', Nat.add_mul, Nat.mul_assoc,
      Nat.add_assoc]

/-- The digits in front count for more by a power of the base for each digit behind them. -/
theorem value_append (base : Nat) (ds es : List Nat) :
    value base (ds ++ es) = value base ds * base ^ es.length + value base es := by
  rw [value, List.foldl_append, value_foldl]
  rfl

theorem value_lt {base : Nat} {ds : List Nat} (h : ∀ d ∈ ds, d < base) :
    value base ds < base ^ ds.length := by
  induction ds with
  | nil => simp [value]
  | cons d ds ih =>
    have hd := h d (by simp)
    have hds := ih fun e he => h e (by simp [he])
    rw [show d :: ds = [d] ++ ds from rfl, value_append, List.length_append, List.length_singleton,
      Nat.pow_add, Nat.pow_one, show value base [d] = d by simp [value]]
    calc d * base ^ ds.length + value base ds
        < d * base ^ ds.length + base ^ ds.length := by omega
      _ = (d + 1) * base ^ ds.length := (Nat.succ_mul _ _).symm
      _ ≤ base * base ^ ds.length := Nat.mul_le_mul_right _ hd

/-- Between two powers of the base, the first digit is the quotient by the smaller one, and the
larger one's exponent is the count of digits. -/
theorem digits_eq_cons {base k n : Nat} (hb : 2 ≤ base) (hlo : base ^ k ≤ n)
    (hhi : n < base ^ (k + 1)) :
    ∃ rest, digits base n = n / base ^ k :: rest ∧ rest.length = k := by
  induction k generalizing n with
  | zero =>
    rw [Nat.pow_zero] at hlo
    rw [Nat.zero_add, Nat.pow_one] at hhi
    refine ⟨[], ?_, rfl⟩
    rw [digits, if_pos ⟨hb, by omega⟩, Nat.div_eq_of_lt hhi, digits, if_neg (by simp),
      Nat.mod_eq_of_lt hhi]
    simp
  | succ k ih =>
    have hpos : 0 < base ^ (k + 1) := Nat.pow_pos (by omega)
    -- without its last digit, the number lies between the powers before
    have hlow : base ^ k ≤ n / base := by
      rw [Nat.le_div_iff_mul_le (by omega), ← Nat.pow_succ]
      exact hlo
    have hhigh : n / base < base ^ (k + 1) := by
      rw [Nat.div_lt_iff_lt_mul (by omega), ← Nat.pow_succ]
      exact hhi
    obtain ⟨rest, hrest, hlen⟩ := ih hlow hhigh
    refine ⟨rest ++ [n % base], ?_, by simp [hlen]⟩
    rw [digits, if_pos ⟨hb, by omega⟩, hrest, Nat.div_div_eq_div_mul, Nat.pow_succ',
      List.cons_append]

theorem length_digits_le {base k n : Nat} (hb : 2 ≤ base) (h : n < base ^ k) :
    (digits base n).length ≤ k := by
  induction k generalizing n with
  | zero =>
    rw [Nat.pow_zero] at h
    rw [digits, if_neg (by omega)]
    simp
  | succ k ih =>
    rw [digits]
    split
    · have hdiv : n / base < base ^ k := by
        rw [Nat.div_lt_iff_lt_mul (by omega), ← Nat.pow_succ]
        exact h
      have := ih hdiv
      simp only [List.length_append, List.length_singleton]
      omega
    · simp

/-- A leading zero is kept as a zero. -/
theorem recode_zero_cons (source target : Nat) (ds : List Nat) :
    recode source target (0 :: ds) = 0 :: recode source target ds := by
  rw [recode, recode, show leadingZeros (0 :: ds) = leadingZeros ds + 1 by simp [leadingZeros],
    List.replicate_succ, List.cons_append]
  congr 2
  simp [value]

theorem recode_of_head?_ne {source target : Nat} {ds : List Nat} (h : ds.head? ≠ some 0) :
    recode source target ds = digits target (value source ds) := by
  have hzeros : leadingZeros ds = 0 := by
    have := @leadingZeros_replicate_append 0 ds h
    simpa using this
  rw [recode, hzeros, List.replicate_zero, List.nil_append]

/-- How many digits of the new base are enough for each digit of the old one. -/
theorem length_recode_lt {source target a b : Nat} (ht : 2 ≤ target) (hb : 0 < b) (hab : b ≤ a)
    (hpow : source ^ b ≤ target ^ a) {ds : List Nat} (hlt : ∀ d ∈ ds, d < source) :
    b * (recode source target ds).length < a * ds.length + b := by
  induction ds with
  | nil => simp [recode, leadingZeros, value, digits, hb]
  | cons d ds ih =>
    by_cases hd : d = 0
    · have := ih fun e he => hlt e (by simp [he])
      subst hd
      rw [recode_zero_cons, List.length_cons, List.length_cons, Nat.mul_succ, Nat.mul_succ]
      omega
    · -- the number is below a power of the old base, and that below one of the new
      generalize hk : (d :: ds).length = k at *
      have hval := value_lt hlt
      rw [hk] at hval
      have hbound : value source (d :: ds) < target ^ ((a * k + b - 1) / b) := by
        have hexp : a * k ≤ b * ((a * k + b - 1) / b) := by
          have := Nat.div_add_mod (a * k + b - 1) b
          have := Nat.mod_lt (a * k + b - 1) hb
          omega
        refine (Nat.pow_lt_pow_iff_left (n := b) (by omega)).1 ?_
        calc value source (d :: ds) ^ b
            < (source ^ k) ^ b := Nat.pow_lt_pow_left hval (by omega)
          _ = (source ^ b) ^ k := by rw [← Nat.pow_mul, ← Nat.pow_mul, Nat.mul_comm]
          _ ≤ (target ^ a) ^ k := Nat.pow_le_pow_left hpow k
          _ = target ^ (a * k) := (Nat.pow_mul ..).symm
          _ ≤ target ^ (b * ((a * k + b - 1) / b)) := Nat.pow_le_pow_right (by omega) hexp
          _ = (target ^ ((a * k + b - 1) / b)) ^ b := by rw [Nat.mul_comm, Nat.pow_mul]
      have hlen := length_digits_le ht hbound
      rw [recode_of_head?_ne (by simpa using hd)]
      have hmul : b * ((a * k + b - 1) / b) ≤ a * k + b - 1 := Nat.mul_div_le _ _
      have := Nat.mul_le_mul_left b hlen
      omega

end CoinAddress.Radix

namespace CoinAddress.Base58

/-! ## Reading undoes writing and nothing else -/

theorem digit_of_idxOf? {c : Char} {d : Nat} (h : digits.idxOf? c = some d) :
    d < 58 ∧ digit d = c := by
  obtain ⟨hlt, hget, -⟩ := List.idxOf?_eq_some_iff.1 h
  refine ⟨hlt, ?_⟩
  rw [digit, List.getD_eq_getElem?_getD, List.getElem?_eq_getElem hlt, Option.getD_some, hget]

theorem valuesFrom_eq_ok_iff {offset : Nat} {s : Text} {ds : List Nat} :
    valuesFrom offset s = .ok ds ↔ (∀ d ∈ ds, d < 58) ∧ s = ds.map digit := by
  constructor
  · intro h
    induction s generalizing offset ds with
    | nil =>
      rw [valuesFrom] at h
      cases h
      simp
    | cons c s ih =>
      rw [valuesFrom] at h
      split at h
      · next d hd =>
        obtain ⟨es, hs, rfl⟩ := map_eq_ok_iff.1 h
        obtain ⟨hlt, hes⟩ := ih hs
        obtain ⟨hd58, hdigit⟩ := digit_of_idxOf? hd
        refine ⟨?_, by rw [List.map_cons, hdigit, hes]⟩
        intro e he
        rcases List.mem_cons.1 he with rfl | he
        · exact hd58
        · exact hlt e he
      · cases h
  · rintro ⟨hlt, rfl⟩
    exact valuesFrom_map_digit offset hlt

theorem toNat_lt_of_mem (bs : Bytes) : ∀ d ∈ bs.map UInt8.toNat, d < 256 := by
  intro d hd
  obtain ⟨b, -, rfl⟩ := List.mem_map.1 hd
  exact UInt8.toNat_lt_size b

/-- **Each byte string has one text, and every other text is refused or spells another one.** -/
theorem decode_eq_ok_iff {s : Text} {bs : Bytes} : decode s = .ok bs ↔ s = encode bs := by
  constructor
  · intro h
    obtain ⟨ds, hds, rfl⟩ := map_eq_ok_iff.1 h
    obtain ⟨hlt, rfl⟩ := valuesFrom_eq_ok_iff.1 hds
    have hbytes : (Radix.recode 58 256 ds).map (UInt8.toNat ∘ UInt8.ofNat) =
        Radix.recode 58 256 ds := by
      refine (List.map_congr_left fun d hd => ?_).trans (List.map_id _)
      exact UInt8.toNat_ofNat_of_lt (Radix.recode_lt (by decide) hd)
    rw [encode, List.map_map, hbytes, Radix.recode_recode (by decide) (by decide) hlt]
  · rintro rfl
    exact decode_encode bs

theorem encode_injective {as bs : Bytes} (h : encode as = encode bs) : as = bs := by
  have hread := decode_encode as
  rw [h, decode_encode] at hread
  exact (Except.ok.inj hread).symm

/-! ## What a text starts with -/

theorem encode_zero_cons (bs : Bytes) : encode (0 :: bs) = '1' :: encode bs := by
  rw [encode, List.map_cons, show (0 : UInt8).toNat = 0 from rfl, Radix.recode_zero_cons]
  rfl

/-- The number that a byte string spells. -/
def number (bs : Bytes) : Nat := Radix.value 256 (bs.map UInt8.toNat)

/-- The bytes in front bound a number, whatever stands behind them. -/
theorem number_append_bounds (version rest : Bytes) :
    number version * 256 ^ rest.length ≤ number (version ++ rest) ∧
      number (version ++ rest) < (number version + 1) * 256 ^ rest.length := by
  have hrest := Radix.value_lt (toNat_lt_of_mem rest)
  rw [List.length_map] at hrest
  have hsum : number (version ++ rest) =
      number version * 256 ^ rest.length + Radix.value 256 (rest.map UInt8.toNat) := by
    rw [number, List.map_append, Radix.value_append, List.length_map, number]
  rw [hsum, Nat.succ_mul]
  omega

/-- Without a zero byte in front, a text is the number in base 58. -/
theorem encode_of_head?_ne {bs : Bytes} (h : bs.head? ≠ some 0) :
    encode bs = (Radix.digits 58 (number bs)).map digit := by
  have hdigits : (bs.map UInt8.toNat).head? ≠ some 0 := by
    rw [List.head?_map]
    intro hzero
    obtain ⟨b, hb, hb0⟩ := Option.map_eq_some_iff.1 hzero
    exact h (by rw [hb, ← UInt8.toNat_inj.1 (show b.toNat = (0 : UInt8).toNat from hb0)])
  rw [encode, Radix.recode_of_head?_ne hdigits, number]

/-- Between two powers of the base, a text starts with the quotient by the smaller one. -/
theorem encode_eq_cons_of_number {bs : Bytes} {k : Nat} (hhead : bs.head? ≠ some 0)
    (hlo : 58 ^ k ≤ number bs) (hhi : number bs < 58 ^ (k + 1)) :
    ∃ tail, encode bs = digit (number bs / 58 ^ k) :: tail ∧ tail.length = k := by
  obtain ⟨tail, htail, hlen⟩ := Radix.digits_eq_cons (by decide) hlo hhi
  refine ⟨tail.map digit, ?_, by rw [List.length_map, hlen]⟩
  rw [encode_of_head?_ne hhead, htail, List.map_cons]

/-- Bytes behind a version whose numbers, with this many bytes to follow, all have one leading
digit: that is what the text starts with, and it determines the length of the text. -/
theorem encode_eq_cons {version rest : Bytes} {d k : Nat} (hver : version.head? ≠ some 0)
    (hne : version ≠ []) (hd : 0 < d) (hd58 : d < 58)
    (hlo : d * 58 ^ k ≤ number version * 256 ^ rest.length)
    (hhi : (number version + 1) * 256 ^ rest.length ≤ (d + 1) * 58 ^ k) :
    ∃ tail, encode (version ++ rest) = digit d :: tail ∧ tail.length = k := by
  obtain ⟨hlow, hhigh⟩ := number_append_bounds version rest
  have hmin : 58 ^ k ≤ number (version ++ rest) := by
    have := Nat.mul_le_mul_right (58 ^ k) hd
    omega
  have hmax : number (version ++ rest) < 58 ^ (k + 1) := by
    have := Nat.mul_le_mul_right (58 ^ k) (show d + 1 ≤ 58 by omega)
    rw [Nat.pow_succ']
    omega
  have hquot : number (version ++ rest) / 58 ^ k = d :=
    Nat.div_eq_of_lt_le (Nat.le_trans hlo hlow) (Nat.lt_of_lt_of_le hhigh hhi)
  have hhead : (version ++ rest).head? ≠ some 0 := by
    cases version with
    | nil => exact absurd rfl hne
    | cons v version => exact hver
  rw [← hquot]
  exact encode_eq_cons_of_number hhead hmin hmax

/-- Eleven digits for eight bytes are enough. -/
theorem length_encode_lt (bs : Bytes) : 8 * (encode bs).length < 11 * bs.length + 8 := by
  have h := Radix.length_recode_lt (show 2 ≤ 58 by decide) (show 0 < 8 by decide)
    (show 8 ≤ 11 by decide) (by decide) (toNat_lt_of_mem bs)
  rwa [List.length_map, ← List.length_map (f := digit)] at h

/-- The characters of a text are digits. -/
theorem mem_digits_of_mem_encode {bs : Bytes} {c : Char} (h : c ∈ encode bs) : c ∈ digits := by
  obtain ⟨d, hd, rfl⟩ := List.mem_map.1 h
  have hlt : d < digits.length := Radix.recode_lt (show 2 ≤ 58 by decide) hd
  rw [digit, List.getD_eq_getElem?_getD, List.getElem?_eq_getElem hlt, Option.getD_some]
  exact List.getElem_mem hlt

end CoinAddress.Base58

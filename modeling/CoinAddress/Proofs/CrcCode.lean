import CoinAddress.Digest.Crc16
import CoinAddress.Proofs.BitStream
import CoinAddress.Proofs.ShiftRegister

/-!
# What a CRC-16 detects

The checksum is the content of a shift register of 16 bits after the bits of the message: taking a
byte in is taking its eight bits in, most significant first.

* `checksum_append_bytes`: a message followed by its checksum has the checksum zero.
* `eq_of_checksum_eq`: two messages whose bits differ only within 16 neighbouring positions do not
  have the same checksum.
-/

namespace CoinAddress.Crc16

open Regroup (bits lowBits)

/-! ## The register -/

/-- Multiplies a remainder by x. -/
def shiftNat (r : Nat) : Nat := (r <<< 1) % 2 ^ 16 ^^^ if r.testBit 15 then 0x1021 else 0

theorem and_top_ne_zero_iff (r : UInt16) : r &&& 0x8000 ≠ 0 ↔ r.toNat.testBit 15 := by
  rw [Ne, ← UInt16.toNat_inj, UInt16.toNat_and, show (0x8000 : UInt16).toNat = 2 ^ 15 from rfl,
    Nat.and_two_pow]
  cases r.toNat.testBit 15 <;> simp

/-- A shift of the register is the one of its number. -/
theorem toNat_shift (r : UInt16) : (shift r).toNat = shiftNat r.toNat := by
  have hdouble : (r <<< 1).toNat = (r.toNat <<< 1) % 2 ^ 16 := UInt16.toNat_shiftLeft r 1
  unfold shift shiftNat
  by_cases h : r.toNat.testBit 15
  · rw [if_pos ((and_top_ne_zero_iff r).2 h), if_pos h, UInt16.toNat_xor, hdouble]
    rfl
  · rw [if_neg (mt (and_top_ne_zero_iff r).1 h), if_neg h, hdouble, Nat.xor_zero]

theorem shiftNat_xor (a b : Nat) : shiftNat (a ^^^ b) = shiftNat a ^^^ shiftNat b := by
  unfold shiftNat
  rw [Nat.shiftLeft_xor_distrib, Nat.xor_mod_two_pow, Nat.testBit_xor]
  generalize (a <<< 1) % 2 ^ 16 = x
  generalize (b <<< 1) % 2 ^ 16 = y
  cases a.testBit 15 <;> cases b.testBit 15 <;> simp
  · ac_rfl
  · ac_rfl
  · rw [show x ^^^ 0x1021 ^^^ (y ^^^ 0x1021) = 0x1021 ^^^ (0x1021 ^^^ (x ^^^ y)) by ac_rfl,
      Nat.xor_xor_cancel_left]

theorem shiftNat_lt (r : Nat) : shiftNat r < 2 ^ 16 := by
  refine Nat.xor_lt_two_pow (Nat.mod_lt _ (by decide)) ?_
  split <;> decide

theorem shiftNat_of_lt {r : Nat} (h : r < 2 ^ 15) : shiftNat r = r <<< 1 := by
  rw [shiftNat, Nat.testBit_lt_two_pow h, Nat.shiftLeft_eq, Nat.mod_eq_of_lt (by omega)]
  simp

/-- The shift loses nothing: the lowest bit shows whether the polynomial was added. -/
theorem eq_zero_of_shiftNat_eq_zero {r : Nat} (hr : r < 2 ^ 16) (h : shiftNat r = 0) : r = 0 := by
  unfold shiftNat at h
  split at h
  · -- the polynomial is odd and what was shifted is even
    have hodd := Nat.xor_eq_zero_iff.1 h
    rw [Nat.shiftLeft_eq] at hodd
    omega
  · next htop =>
    have hlow : r < 2 ^ 15 := by
      refine Nat.lt_pow_two_of_testBit r fun i hi => ?_
      by_cases hi15 : i = 15
      · subst hi15
        simpa using htop
      · exact Nat.testBit_lt_two_pow
          (Nat.lt_of_lt_of_le hr (Nat.pow_le_pow_right (by decide) (by omega)))
    rw [Nat.xor_zero, Nat.shiftLeft_eq, Nat.mod_eq_of_lt (by omega)] at h
    omega

/-- The register that computes the checksum. -/
def register : ShiftRegister where
  width := 16
  shift := shiftNat
  shift_xor := shiftNat_xor
  shift_lt r _ := shiftNat_lt r
  eq_zero_of_shift _ := eq_zero_of_shiftNat_eq_zero

/-- What a bit of the message adds when it is taken in. -/
def enter (b : Bool) : Nat := if b then 0x1021 else 0

theorem enter_lt (b : Bool) : enter b < 2 ^ 16 := by cases b <;> decide

/-! ## Bits of the message -/

/-- The lower bits of a number are the highest of them and those below it. -/
theorem mod_two_pow_succ (k n : Nat) :
    n % 2 ^ (k + 1) = (n.testBit k).toNat <<< k ^^^ n % 2 ^ k := by
  refine Nat.eq_of_testBit_eq fun i => ?_
  rw [Nat.testBit_xor, Nat.testBit_mod_two_pow, Nat.testBit_mod_two_pow, Nat.testBit_shiftLeft]
  by_cases hlt : i < k
  · simp [hlt, show i < k + 1 by omega, show ¬ k ≤ i by omega]
  · by_cases heq : i = k
    · subst heq
      cases n.testBit i <;> simp
    · have hbit : (n.testBit k).toNat.testBit (i - k) = false :=
        Nat.testBit_lt_two_pow (Nat.lt_of_lt_of_le (Bool.toNat_lt _)
          (Nat.pow_le_pow_right (n := 2) (by decide) (show 1 ≤ i - k by omega)))
      simp [hlt, show ¬ i < k + 1 by omega, hbit]

theorem shiftNat_top (b : Bool) : shiftNat (b.toNat <<< 15) = enter b := by
  cases b <;> decide

/-- Up to 16 bits enter the register as one number, at its top. -/
theorem run_lowBits {k : Nat} (hk : k ≤ 16) (r n : Nat) :
    register.run enter r (lowBits k n) = shiftNat^[k] (r ^^^ (n % 2 ^ k) <<< (16 - k)) := by
  induction k generalizing r with
  | zero => simp [lowBits, ShiftRegister.run, Nat.mod_one]
  | succ k ih =>
    -- the bits that follow stay below the top, so the shift does not touch them
    have hlow : (n % 2 ^ k) <<< (16 - (k + 1)) < 2 ^ 15 := by
      have hpow : 2 ^ k * 2 ^ (16 - (k + 1)) = 2 ^ 15 := by
        rw [← Nat.pow_add, show k + (16 - (k + 1)) = 15 by omega]
      rw [Nat.shiftLeft_eq, ← hpow]
      exact Nat.mul_lt_mul_of_pos_right (Nat.mod_lt _ (Nat.two_pow_pos k)) (Nat.two_pow_pos _)
    rw [lowBits, ShiftRegister.run_cons, ih (by omega), Function.iterate_succ_apply, shiftNat_xor,
      mod_two_pow_succ, Nat.shiftLeft_xor_distrib, shiftNat_xor, shiftNat_of_lt hlow,
      ← Nat.shiftLeft_add, ← Nat.shiftLeft_add, show k + (16 - (k + 1)) = 15 by omega,
      shiftNat_top, show 16 - (k + 1) + 1 = 16 - k by omega, Nat.xor_assoc]
    rfl

theorem toNat_foldl_shift (k : Nat) (r : UInt16) :
    ((List.range k).foldl (fun r _ => shift r) r).toNat = shiftNat^[k] r.toNat := by
  induction k with
  | zero => rfl
  | succ k ih =>
    rw [List.range_succ, List.foldl_append, List.foldl_cons, List.foldl_nil, toNat_shift, ih,
      Function.iterate_succ_apply']

/-- A byte is taken in bit by bit. -/
theorem toNat_step (r : UInt16) (b : UInt8) :
    (step r b).toNat = register.run enter r.toNat (lowBits 8 b.toNat) := by
  have hb : b.toNat < 2 ^ 8 := UInt8.toNat_lt_size b
  have htop : (b.toUInt16 <<< 8).toNat = b.toNat <<< 8 := by
    rw [UInt16.toNat_shiftLeft, UInt8.toNat_toUInt16,
      show (8 : UInt16).toNat % 16 = 8 from rfl, Nat.shiftLeft_eq, Nat.mod_eq_of_lt (by omega)]
  rw [step, toNat_foldl_shift, UInt16.toNat_xor, htop, run_lowBits (by decide),
    Nat.mod_eq_of_lt hb]

/-- A message is entered bit by bit. -/
theorem toNat_foldl_step (r : UInt16) (message : Bytes) :
    (message.foldl step r).toNat = register.run enter r.toNat (bits 8 message) := by
  induction message generalizing r with
  | nil => rfl
  | cons b message ih =>
    rw [List.foldl_cons, ih, toNat_step, Regroup.bits_cons, ShiftRegister.run_append]

/-- The checksum is the content of the register after the bits of the message. -/
theorem toNat_checksum (message : Bytes) :
    (checksum message).toNat = register.run enter 0 (bits 8 message) :=
  toNat_foldl_step 0 message

/-! ## What is written and what is detected -/

theorem bits_bytes (message : Bytes) :
    bits 8 (bytes message) = lowBits 16 (checksum message).toNat := by
  have hhigh : ((checksum message) >>> 8).toUInt8.toNat =
      (checksum message).toNat >>> 8 % 2 ^ 8 := by
    rw [UInt16.toNat_toUInt8, UInt16.toNat_shiftRight, show (8 : UInt16).toNat % 16 = 8 from rfl]
  have hlow : (checksum message).toUInt8.toNat = (checksum message).toNat % 2 ^ 8 :=
    UInt16.toNat_toUInt8 _
  rw [bytes, Regroup.bits_cons, Regroup.bits_cons, hhigh, hlow, Regroup.lowBits_mod (by omega),
    Regroup.lowBits_mod (by omega), show 16 = 8 + 8 from rfl, Regroup.lowBits_add]
  simp [bits]

/-- **A message followed by its checksum leaves nothing.** -/
theorem checksum_append_bytes (message : Bytes) : checksum (message ++ bytes message) = 0 := by
  have hfit : (checksum message).toNat % 2 ^ 16 = (checksum message).toNat :=
    Nat.mod_eq_of_lt (UInt16.toNat_lt_size _)
  rw [← UInt16.toNat_inj, toNat_checksum, Regroup.bits_append, ShiftRegister.run_append, bits_bytes,
    ← toNat_checksum, run_lowBits (by decide), hfit, show 16 - 16 = 0 from rfl,
    Nat.shiftLeft_zero, Nat.xor_self]
  decide

theorem exists_lowBits (us : List Bool) : ∃ n < 2 ^ us.length, lowBits us.length n = us := by
  induction us with
  | nil => exact ⟨0, by decide, rfl⟩
  | cons u us ih =>
    obtain ⟨n, hn, hus⟩ := ih
    have hsplit := @Regroup.lowBits_shiftLeft_or 1 us.length u.toNat n hn
    refine ⟨u.toNat <<< us.length ||| n, Nat.or_lt_two_pow ?_ ?_, ?_⟩
    · have := Bool.toNat_lt u
      rw [Nat.shiftLeft_eq, List.length_cons, Nat.pow_succ']
      exact Nat.mul_lt_mul_of_pos_right this (Nat.two_pow_pos _)
    · rw [List.length_cons, Nat.pow_succ']
      omega
    · rw [List.length_cons, Nat.add_comm, hsplit, hus]
      cases u <;> rfl

/-- Up to 16 bits are determined by what they leave in an empty register. -/
theorem eq_of_run_zero_eq {us ws : List Bool} (hlen : us.length = ws.length)
    (hshort : us.length ≤ 16) (h : register.run enter 0 us = register.run enter 0 ws) :
    us = ws := by
  obtain ⟨m, hm, hus⟩ := exists_lowBits us
  obtain ⟨n, hn, hws⟩ := exists_lowBits ws
  rw [← hlen] at hn hws
  have hpow : 2 ^ us.length * 2 ^ (16 - us.length) = 2 ^ 16 := by
    rw [← Nat.pow_add, show us.length + (16 - us.length) = 16 by omega]
  have hfit : ∀ k < 2 ^ us.length, k <<< (16 - us.length) < 2 ^ register.width := by
    intro k hk
    rw [Nat.shiftLeft_eq, show register.width = 16 from rfl, ← hpow]
    exact Nat.mul_lt_mul_of_pos_right hk (Nat.two_pow_pos _)
  rw [← hus, ← hws, run_lowBits (by simpa using hshort), run_lowBits (by simpa using hshort),
    Nat.zero_xor, Nat.zero_xor, Nat.mod_eq_of_lt hm, Nat.mod_eq_of_lt hn] at h
  -- as numbers the bits were shifted equally far, and the register forgets nothing
  have hshifted := ShiftRegister.iterate_shift_injective (hfit m hm) (hfit n hn) h
  rw [Nat.shiftLeft_eq, Nat.shiftLeft_eq] at hshifted
  rw [← hus, ← hws, Nat.eq_of_mul_eq_mul_right (Nat.two_pow_pos _) hshifted]

/-- **A change within 16 neighbouring bits changes the checksum.** -/
theorem eq_of_checksum_eq {a b : Bytes} {before after us ws : List Bool}
    (ha : bits 8 a = before ++ us ++ after) (hb : bits 8 b = before ++ ws ++ after)
    (hlen : us.length = ws.length) (hshort : us.length ≤ 16) (h : checksum a = checksum b) :
    us = ws := by
  rw [← UInt16.toNat_inj, toNat_checksum, toNat_checksum, ha, hb] at h
  exact eq_of_run_zero_eq hlen hshort
    (ShiftRegister.eq_of_run_eq (R := register) enter_lt (by decide) hlen h)

end CoinAddress.Crc16

import CoinAddress.Bech32.Basic
import CoinAddress.CashAddr
import CoinAddress.Proofs.BitStream
import CoinAddress.Proofs.ShiftRegister

/-!
# What a cyclic checksum writes and what it detects

The remainder is the content of a shift register: `step` shifts it and takes the word in by an
exclusive or. As many words as the checksum has fit into the register without being reduced, so
they enter it unchanged, as the digits of one number.

* `residue_append_checksum`: with its checksum, a list of words has the remainder aimed at.
* `eq_of_residue_eq`: two lists that differ only within as many neighbouring words as the checksum
  has do not have the same remainder.
* `residue_eq_iff_withChecksum`: only words that end with their checksum have the remainder aimed
  at.

They need little of the generators, `CyclicCode.Sound`, and the two codes in use have it.
-/

namespace CoinAddress.CyclicCode

open Regroup (bits)

/-- How many bits a remainder has. -/
def residueBits (g : CyclicCode) : Nat := 5 * g.checksumWords

/-- What is needed of a code: room for a byte, and multiples of the generator that fit into a
remainder and are told apart by their lowest word. -/
structure Sound (g : CyclicCode) : Prop where
  two_le : 2 ≤ g.checksumWords
  feedback_lt : ∀ top < 32, g.feedback top < 2 ^ g.residueBits
  feedback_mod : ∀ top < 32, g.feedback top % 32 = 0 → top = 0

theorem sound_bech32 : Bech32.code.Sound := by
  constructor <;> decide

theorem sound_cashAddr : CashAddr.code.Sound := by
  constructor <;> decide

/-! ## Exclusive or -/

/-- Where only one of two numbers has a bit, joining them is their exclusive or. -/
theorem shiftLeft_xor_eq_or {k m w : Nat} (hw : w < 2 ^ k) : m <<< k ^^^ w = m <<< k ||| w := by
  refine Nat.eq_of_testBit_eq fun i => ?_
  rw [Nat.testBit_xor, Nat.testBit_or, Nat.testBit_shiftLeft]
  by_cases hi : k ≤ i
  · have hle : 2 ^ k ≤ 2 ^ i := Nat.pow_le_pow_right (by omega) hi
    simp [Nat.testBit_lt_two_pow (show w < 2 ^ i by omega)]
  · simp [hi]

/-! ## Linearity -/

theorem feedback_foldl (top r : Nat) (l : List (Nat × Nat)) :
    l.foldl (fun r wi => if top.testBit wi.2 then r ^^^ wi.1 else r) r =
      r ^^^ l.foldl (fun r wi => if top.testBit wi.2 then r ^^^ wi.1 else r) 0 := by
  induction l generalizing r with
  | nil => simp
  | cons wi l ih =>
    rw [List.foldl_cons, List.foldl_cons, ih]
    conv => rhs; rw [ih]
    split <;> simp [Nat.xor_assoc]

/-- The generators that are added are picked bit by bit. -/
theorem feedback_xor (g : CyclicCode) (a b : Nat) :
    g.feedback (a ^^^ b) = g.feedback a ^^^ g.feedback b := by
  rw [feedback, feedback, feedback]
  induction g.generators.zipIdx with
  | nil => simp
  | cons wi l ih =>
    rw [List.foldl_cons, List.foldl_cons, List.foldl_cons, feedback_foldl (a ^^^ b),
      feedback_foldl a, feedback_foldl b, ih, Nat.testBit_xor]
    generalize l.foldl (fun r wi => if a.testBit wi.2 then r ^^^ wi.1 else r) 0 = x
    generalize l.foldl (fun r wi => if b.testBit wi.2 then r ^^^ wi.1 else r) 0 = y
    cases a.testBit wi.2 <;> cases b.testBit wi.2 <;> simp
    · ac_rfl
    · ac_rfl
    · rw [show wi.1 ^^^ x ^^^ (wi.1 ^^^ y) = wi.1 ^^^ wi.1 ^^^ (x ^^^ y) by ac_rfl, Nat.xor_self,
        Nat.zero_xor]

theorem feedback_zero (g : CyclicCode) : g.feedback 0 = 0 := by
  have h := feedback_xor g 0 0
  rwa [Nat.xor_self, Nat.xor_self] at h

/-- The remainder with a zero word taken in. -/
def shift (g : CyclicCode) (r : Nat) : Nat :=
  (r % 2 ^ g.lowBits) <<< 5 ^^^ g.feedback (r >>> g.lowBits)

/-- The residue is shifted, and then the word is added. -/
theorem step_eq (g : CyclicCode) (r : Nat) (w : UInt8) :
    g.step r w = g.shift r ^^^ w.toNat := by
  rw [step, shift, Nat.one_shiftLeft, Nat.xor_assoc, Nat.xor_assoc, Nat.xor_comm w.toNat]

theorem shift_xor (g : CyclicCode) (a b : Nat) : g.shift (a ^^^ b) = g.shift a ^^^ g.shift b := by
  rw [shift, shift, shift, Nat.xor_mod_two_pow, Nat.shiftLeft_xor_distrib,
    Nat.shiftRight_xor_distrib, feedback_xor]
  ac_rfl

/-! ## Few words -/

/-- The number whose digits to the base 32 are some words. -/
def number (ws : Bytes) : Nat := ws.foldl (fun n w => n <<< 5 ||| w.toNat) 0

/-- The bits of the number are those of its digits. -/
theorem lowBits_number {ws : Bytes} (hws : ∀ w ∈ ws, w.toNat < 32) :
    Regroup.lowBits (5 * ws.length) (number ws) = bits 5 ws := by
  have h := @Regroup.lowBits_foldl _ 5 UInt8.toNat ws hws 0 0
  rwa [Nat.zero_add] at h

theorem number_lt {ws : Bytes} (hws : ∀ w ∈ ws, w.toNat < 32) :
    number ws < 2 ^ (5 * ws.length) := by
  have key : ∀ (ws : Bytes) (k n : Nat), (∀ w ∈ ws, w.toNat < 32) → n < 2 ^ k →
      ws.foldl (fun n w => n <<< 5 ||| w.toNat) n < 2 ^ (k + 5 * ws.length) := by
    intro ws
    induction ws with
    | nil => exact fun k n _ hn => hn
    | cons w ws ih =>
      intro k n hws hn
      rw [List.foldl_cons, List.length_cons,
        show k + 5 * (ws.length + 1) = k + 5 + 5 * ws.length by omega]
      refine ih (k + 5) _ (fun x hx => hws x (by simp [hx])) (Nat.or_lt_two_pow ?_ ?_)
      · rw [Nat.shiftLeft_eq, Nat.pow_add]
        exact Nat.mul_lt_mul_of_pos_right hn (by decide)
      · have hle : 2 ^ 5 ≤ 2 ^ (k + 5) := Nat.pow_le_pow_right (by omega) (by omega)
        have := hws w (by simp)
        omega
  have h := key ws 0 0 hws (by decide)
  rwa [Nat.zero_add] at h

/-- Words are the digits of their number. -/
theorem eq_of_number_eq {us ws : Bytes} (hus : ∀ w ∈ us, w.toNat < 32)
    (hws : ∀ w ∈ ws, w.toNat < 32) (hlen : us.length = ws.length) (h : number us = number ws) :
    us = ws := by
  refine Regroup.eq_of_bits_eq 5 hus hws hlen ?_
  rw [← lowBits_number hus, ← lowBits_number hws, h, hlen]

/-- As long as they fit, words enter a remainder without being reduced. -/
theorem foldl_step_zero {g : CyclicCode} {ws : Bytes} (hws : ∀ w ∈ ws, w.toNat < 32)
    (hlen : ws.length ≤ g.checksumWords) : ws.foldl g.step 0 = number ws := by
  -- the remainder stays below 2 ^ (5 * j) after j words, so its top word is zero throughout
  have key : ∀ (ws : Bytes) (j r : Nat), (∀ w ∈ ws, w.toNat < 32) → r < 2 ^ (5 * j) →
      j + ws.length ≤ g.checksumWords →
      ws.foldl g.step r = ws.foldl (fun n w => n <<< 5 ||| w.toNat) r := by
    intro ws
    induction ws with
    | nil => exact fun _ _ _ _ _ => rfl
    | cons w ws ih =>
      intro j r hws hr hj
      rw [List.length_cons] at hj
      have hw : w.toNat < 2 ^ 5 := hws w (by simp)
      have hlow : r < 2 ^ g.lowBits :=
        Nat.lt_of_lt_of_le hr (Nat.pow_le_pow_right (by omega) (by rw [lowBits]; omega))
      have hstep : g.step r w = r <<< 5 ||| w.toNat := by
        rw [step_eq, shift, Nat.mod_eq_of_lt hlow, Nat.shiftRight_eq_div_pow,
          Nat.div_eq_of_lt hlow, feedback_zero, Nat.xor_zero, shiftLeft_xor_eq_or hw]
      rw [List.foldl_cons, List.foldl_cons, hstep]
      refine ih (j + 1) _ (fun x hx => hws x (by simp [hx])) ?_ (by omega)
      have hpow : 2 ^ (5 * (j + 1)) = 2 ^ (5 * j) * 2 ^ 5 := by rw [← Nat.pow_add, Nat.mul_succ]
      refine Nat.or_lt_two_pow ?_ ?_
      · rw [Nat.shiftLeft_eq, hpow]
        exact Nat.mul_lt_mul_of_pos_right hr (by decide)
      · have := Nat.two_pow_pos (5 * j)
        omega
  exact key ws 0 0 hws (by decide) (by omega)

/-! ## The register -/

variable {g : CyclicCode}

theorem residueBits_eq (hg : g.Sound) : g.residueBits = g.lowBits + 5 := by
  have := hg.two_le
  rw [residueBits, lowBits]
  omega

theorem top_lt (hg : g.Sound) {r : Nat} (hr : r < 2 ^ g.residueBits) :
    r >>> g.lowBits < 32 := by
  rw [residueBits_eq hg, Nat.pow_add, Nat.mul_comm] at hr
  rw [Nat.shiftRight_eq_div_pow, Nat.div_lt_iff_lt_mul (Nat.two_pow_pos _)]
  exact hr

/-- A residue stays within its width. -/
theorem shift_lt (hg : g.Sound) {r : Nat} (hr : r < 2 ^ g.residueBits) :
    g.shift r < 2 ^ g.residueBits := by
  refine Nat.xor_lt_two_pow ?_ (hg.feedback_lt _ (top_lt hg hr))
  rw [residueBits_eq hg, Nat.shiftLeft_eq, Nat.pow_add]
  exact Nat.mul_lt_mul_of_pos_right (Nat.mod_lt _ (Nat.two_pow_pos _)) (by decide)

/-- The shift loses nothing: the lowest word shows which multiple of the generator was added. -/
theorem eq_zero_of_shift_eq_zero (hg : g.Sound) {r : Nat}
    (hr : r < 2 ^ g.residueBits) (h : g.shift r = 0) : r = 0 := by
  have htop : r >>> g.lowBits = 0 := by
    -- below the shifted words there is only what the top word selected
    refine hg.feedback_mod _ (top_lt hg hr) ?_
    have hmod := congrArg (· % 2 ^ 5) h
    simp only [shift, Nat.xor_mod_two_pow, Nat.shiftLeft_eq, Nat.mul_mod_left, Nat.zero_xor,
      Nat.zero_mod] at hmod
    exact hmod
  have hlow : r % 2 ^ g.lowBits = 0 := by
    rw [shift, htop, feedback_zero, Nat.xor_zero, Nat.shiftLeft_eq] at h
    omega
  rw [Nat.shiftRight_eq_div_pow] at htop
  rw [← Nat.div_add_mod r (2 ^ g.lowBits), htop, hlow]
  simp

/-- The register that computes the remainder. -/
def register (hg : g.Sound) : ShiftRegister where
  width := g.residueBits
  shift := g.shift
  shift_xor := g.shift_xor
  shift_lt _ := shift_lt hg
  eq_zero_of_shift _ := eq_zero_of_shift_eq_zero hg

/-- A residue is a state of the register, run over the words. -/
theorem foldl_step_eq_run (hg : g.Sound) (r : Nat) (ws : Bytes) :
    ws.foldl g.step r = (register hg).run UInt8.toNat r ws := by
  rw [ShiftRegister.run, show g.step = fun r w => g.shift r ^^^ w.toNat from ?_]
  · rfl
  · funext r w
    exact step_eq g r w

theorem toNat_lt (hg : g.Sound) (w : UInt8) : w.toNat < 2 ^ g.residueBits := by
  have hroom : 2 ^ 8 ≤ 2 ^ g.residueBits :=
    Nat.pow_le_pow_right (by omega) (by have := hg.two_le; rw [residueBits]; omega)
  exact Nat.lt_of_lt_of_le (UInt8.toNat_lt_size w) hroom

theorem one_lt (hg : g.Sound) : 1 < 2 ^ g.residueBits :=
  Nat.one_lt_two_pow (by have := hg.two_le; rw [residueBits]; omega)

theorem residue_lt (hg : g.Sound) (ws : Bytes) : g.residue ws < 2 ^ g.residueBits := by
  rw [residue, foldl_step_eq_run hg]
  exact ShiftRegister.run_lt (R := register hg) (toNat_lt hg) (one_lt hg) ws

/-! ## What is written and what is detected -/

/-- The words of a checksum spell the residue they are made from. -/
theorem bits_checksumWords (k r : Nat) :
    bits 5 ((List.range k).map fun i => UInt8.ofNat (r >>> (5 * (k - 1 - i)) % 32)) =
      Regroup.lowBits (5 * k) r := by
  induction k with
  | zero => rfl
  | succ k ih =>
    have hfirst : (UInt8.ofNat (r >>> (5 * (k + 1 - 1 - 0)) % 32)).toNat =
        r >>> (5 * k) % 2 ^ 5 := by
      rw [UInt8.toNat_ofNat']
      exact Nat.mod_eq_of_lt (by omega)
    rw [List.range_succ_eq_map, List.map_cons, List.map_map, Regroup.bits_cons, hfirst,
      Regroup.lowBits_mod (by omega), show 5 * (k + 1) = 5 + 5 * k by omega, Regroup.lowBits_add,
      ← ih]
    refine congrArg (Regroup.lowBits 5 _ ++ bits 5 ·) (List.map_congr_left fun i _ => ?_)
    rw [Function.comp_apply, show k + 1 - 1 - i.succ = k - 1 - i by omega]

theorem checksum_lt {g : CyclicCode} {target : Nat} {ws : Bytes} {w : UInt8}
    (h : w ∈ g.checksum target ws) : w.toNat < 32 := by
  obtain ⟨i, -, rfl⟩ := List.mem_map.1 h
  rw [UInt8.toNat_ofNat']
  omega

/-- **The checksum does its work:** with it, the remainder is the one aimed at. -/
theorem residue_append_checksum (hg : g.Sound) {target : Nat} (ht : target < 2 ^ g.residueBits)
    (ws : Bytes) : g.residue (ws ++ g.checksum target ws) = target := by
  have hzeros : ∀ w ∈ List.replicate g.checksumWords (0 : UInt8), w.toNat < 32 := by
    intro w hw
    rw [(List.mem_replicate.1 hw).2]
    decide
  have hzero : number (List.replicate g.checksumWords 0) = 0 := by
    rw [number]
    induction g.checksumWords with
    | zero => rfl
    | succ k ih => simpa [List.replicate_succ] using ih
  have hwords : ∀ w ∈ g.checksum target ws, w.toNat < 32 := fun w hw => checksum_lt hw
  have hnumber : number (g.checksum target ws) =
      g.residue (ws ++ List.replicate g.checksumWords 0) ^^^ target := by
    refine Regroup.eq_of_lowBits_eq (k := g.residueBits) ?_ ?_ ?_
    · have := number_lt hwords
      rwa [length_checksum] at this
    · exact Nat.xor_lt_two_pow (residue_lt hg _) ht
    · have hbits := lowBits_number hwords
      rw [length_checksum] at hbits
      rw [residueBits, hbits, ← bits_checksumWords, checksum]
  -- both continuations shift the remainder of `ws` equally far, and add their number to it
  have hrun : ∀ us : Bytes, (∀ w ∈ us, w.toNat < 32) → us.length = g.checksumWords →
      g.residue (ws ++ us) = g.shift^[g.checksumWords] (g.residue ws) ^^^ number us := by
    intro us hus hlen
    rw [residue_append, foldl_step_eq_run hg, ShiftRegister.run_eq, ← foldl_step_eq_run hg,
      foldl_step_zero hus (by omega), hlen]
    rfl
  rw [hrun _ (fun w hw => checksum_lt hw) (length_checksum ..), hnumber,
    hrun _ hzeros (List.length_replicate ..), hzero, Nat.xor_zero, Nat.xor_xor_cancel_left]

/-- **A change within as many neighbouring words as the checksum has changes the remainder.** -/
theorem eq_of_residue_eq (hg : g.Sound) (before after : Bytes) {us ws : Bytes}
    (hus : ∀ w ∈ us, w.toNat < 32) (hws : ∀ w ∈ ws, w.toNat < 32) (hlen : us.length = ws.length)
    (hshort : us.length ≤ g.checksumWords)
    (h : g.residue (before ++ us ++ after) = g.residue (before ++ ws ++ after)) : us = ws := by
  rw [residue, residue, foldl_step_eq_run hg, foldl_step_eq_run hg] at h
  -- what stands before and after cancels, and the words themselves enter an empty register
  have hrun := ShiftRegister.eq_of_run_eq (R := register hg) (toNat_lt hg) (one_lt hg) hlen h
  rw [← foldl_step_eq_run hg, ← foldl_step_eq_run hg, foldl_step_zero hus hshort,
    foldl_step_zero hws (hlen ▸ hshort)] at hrun
  exact eq_of_number_eq hus hws hlen hrun

/-- The checksum is the only end of its length that leads to the remainder aimed at. -/
theorem residue_eq_iff (hg : g.Sound) {target : Nat} (ht : target < 2 ^ g.residueBits)
    {ws cs : Bytes} (hcs : ∀ w ∈ cs, w.toNat < 32) (hlen : cs.length = g.checksumWords) :
    g.residue (ws ++ cs) = target ↔ cs = g.checksum target ws := by
  constructor
  · intro h
    refine eq_of_residue_eq hg ws [] hcs (fun w hw => checksum_lt hw)
      (by rw [hlen, length_checksum]) (by omega) ?_
    rw [List.append_nil, List.append_nil, h, residue_append_checksum hg ht]
  · rintro rfl
    exact residue_append_checksum hg ht ws

/-! ## Words with their checksum -/

/-- Words followed by the checksum of what stands before them and of themselves. -/
def withChecksum (g : CyclicCode) (target : Nat) (front words : Bytes) : Bytes :=
  words ++ g.checksum target (front ++ words)

theorem length_withChecksum (g : CyclicCode) (target : Nat) (front words : Bytes) :
    (g.withChecksum target front words).length = words.length + g.checksumWords := by
  rw [withChecksum, List.length_append, length_checksum]

theorem lt_of_mem_withChecksum {target : Nat} {front words : Bytes}
    (hwords : ∀ w ∈ words, w.toNat < 32) : ∀ w ∈ g.withChecksum target front words,
      w.toNat < 32 := by
  intro w hw
  rcases List.mem_append.1 hw with hw | hw
  · exact hwords w hw
  · exact checksum_lt hw

theorem take_withChecksum (g : CyclicCode) (target : Nat) (front words : Bytes) :
    (g.withChecksum target front words).take
      ((g.withChecksum target front words).length - g.checksumWords) = words := by
  rw [length_withChecksum, Nat.add_sub_cancel, withChecksum, List.take_left]

/-- Words with their checksum have the residue that is looked for. -/
theorem residue_withChecksum (hg : g.Sound) {target : Nat} (ht : target < 2 ^ g.residueBits)
    (front words : Bytes) : g.residue (front ++ g.withChecksum target front words) = target := by
  rw [withChecksum, ← List.append_assoc]
  exact residue_append_checksum hg ht _

/-- **Words have the remainder aimed at just when they end with their checksum.** -/
theorem residue_eq_iff_withChecksum (hg : g.Sound) {target : Nat} (ht : target < 2 ^ g.residueBits)
    {front ws : Bytes} (hws : ∀ w ∈ ws, w.toNat < 32) (hlong : g.checksumWords ≤ ws.length) :
    g.residue (front ++ ws) = target ↔
      ws = g.withChecksum target front (ws.take (ws.length - g.checksumWords)) := by
  have hsplit := List.take_append_drop (ws.length - g.checksumWords) ws
  generalize hhead : ws.take (ws.length - g.checksumWords) = head at hsplit ⊢
  generalize htail : ws.drop (ws.length - g.checksumWords) = tail at hsplit
  have htail_len : tail.length = g.checksumWords := by
    rw [← htail, List.length_drop]
    omega
  have htail_lt : ∀ w ∈ tail, w.toNat < 32 := fun w hw =>
    hws w (hsplit ▸ List.mem_append_right _ hw)
  rw [← hsplit, ← List.append_assoc, residue_eq_iff hg ht htail_lt htail_len, withChecksum,
    List.append_right_inj]

end CoinAddress.CyclicCode

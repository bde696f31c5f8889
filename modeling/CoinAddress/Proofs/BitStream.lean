import CoinAddress.Bytes.Regroup
import CoinAddress.Proofs.Outcome
import Mathlib.Algebra.Ring.Nat

/-!
# Regrouping keeps the bit stream

A list of words of one width stands for one stream of bits, `bits`. Regrouping gives the words of
another width that stand for the same stream, up to zeros at the end.

* `regroup_padded_iff`: with padding, the stream is filled up with fewer zeros than a word has.
* `regroup_exact_iff`: without padding, fewer zeros than a word on either side has are left over.
* `regroup_exact_iff_padded`: to a wider word and back, the two undo each other.
* `bytes_in_words_of_five`: bytes in words of five bits, as two of the formats have them.

The loop never masks its accumulator, so nothing is said about the accumulator as a number: the
invariant of `regroupFrom_spec` only speaks of its lowest `count` bits.
-/

namespace CoinAddress.Regroup

/-! ## Bits of numbers and words -/

/-- The lowest `k` bits of a number, most significant first. -/
def lowBits : Nat → Nat → List Bool
  | 0, _ => []
  | k + 1, n => n.testBit k :: lowBits k n

/-- The stream of a list of words. -/
def bits (width : Nat) (ws : Bytes) : List Bool := ws.flatMap fun w => lowBits width w.toNat

@[simp] theorem length_lowBits (k n : Nat) : (lowBits k n).length = k := by
  induction k with
  | zero => rfl
  | succ k ih => simp [lowBits, ih]

@[simp] theorem length_bits (width : Nat) (ws : Bytes) :
    (bits width ws).length = width * ws.length := by
  induction ws with
  | nil => rfl
  | cons w ws ih =>
    rw [bits, List.flatMap_cons, List.length_append, length_lowBits, List.length_cons]
    rw [show (ws.flatMap fun w => lowBits width w.toNat) = bits width ws from rfl, ih,
      Nat.mul_add, Nat.mul_one, Nat.add_comm]

@[simp] theorem bits_nil (width : Nat) : bits width [] = [] := rfl

theorem bits_cons (width : Nat) (w : UInt8) (ws : Bytes) :
    bits width (w :: ws) = lowBits width w.toNat ++ bits width ws := by
  rw [bits, List.flatMap_cons, bits]

theorem bits_append (width : Nat) (us ws : Bytes) :
    bits width (us ++ ws) = bits width us ++ bits width ws := by
  rw [bits, List.flatMap_append, bits, bits]

/-- Numbers with the same bits have the same stream, and the other way round. -/
theorem lowBits_eq_iff {k m n : Nat} :
    lowBits k m = lowBits k n ↔ ∀ i < k, m.testBit i = n.testBit i := by
  induction k with
  | zero => simp [lowBits]
  | succ k ih =>
    rw [lowBits, lowBits, List.cons.injEq, ih]
    constructor
    · rintro ⟨hk, hlt⟩ i hi
      rcases Nat.lt_succ_iff_lt_or_eq.1 hi with h | rfl
      · exact hlt i h
      · exact hk
    · intro h
      exact ⟨h k (by omega), fun i hi => h i (by omega)⟩

theorem eq_of_lowBits_eq {k m n : Nat} (hm : m < 2 ^ k) (hn : n < 2 ^ k)
    (h : lowBits k m = lowBits k n) : m = n := by
  refine Nat.eq_of_testBit_eq fun i => ?_
  by_cases hi : i < k
  · exact lowBits_eq_iff.1 h i hi
  · have hle : 2 ^ k ≤ 2 ^ i := Nat.pow_le_pow_right (by omega) (by omega)
    rw [Nat.testBit_lt_two_pow (by omega), Nat.testBit_lt_two_pow (by omega)]

/-- A number's bits are those of its high part and then those of its low part. -/
theorem lowBits_add (a b n : Nat) : lowBits (a + b) n = lowBits a (n >>> b) ++ lowBits b n := by
  induction a with
  | zero => simp [lowBits]
  | succ a ih =>
    rw [show a + 1 + b = a + b + 1 by omega, lowBits, ih, lowBits, Nat.testBit_shiftRight,
      List.cons_append, Nat.add_comm b a]

theorem lowBits_zero (k : Nat) : lowBits k 0 = List.replicate k false := by
  induction k with
  | zero => rfl
  | succ k ih => rw [lowBits, ih, Nat.zero_testBit, List.replicate_succ]

/-- Appending a word: the bits of what is shifted in follow those of what was there. -/
theorem lowBits_shiftLeft_or {a b m w : Nat} (hw : w < 2 ^ b) :
    lowBits (a + b) (m <<< b ||| w) = lowBits a m ++ lowBits b w := by
  rw [lowBits_add]
  congr 1
  · refine lowBits_eq_iff.2 fun i _ => ?_
    have hle : 2 ^ b ≤ 2 ^ (b + i) := Nat.pow_le_pow_right (by omega) (by omega)
    rw [Nat.testBit_shiftRight, Nat.testBit_or, Nat.testBit_shiftLeft,
      Nat.testBit_lt_two_pow (show w < 2 ^ (b + i) by omega)]
    simp
  · refine lowBits_eq_iff.2 fun i hi => ?_
    rw [Nat.testBit_or, Nat.testBit_shiftLeft]
    simp [show ¬ b ≤ i by omega]

/-- A number that is put together word by word ends with the bits of the words. -/
theorem lowBits_foldl {α : Type} {width : Nat} {value : α → Nat} {ws : List α}
    (hws : ∀ w ∈ ws, value w < 2 ^ width) (k n : Nat) :
    lowBits (k + width * ws.length) (ws.foldl (fun n w => n <<< width ||| value w) n) =
      lowBits k n ++ ws.flatMap fun w => lowBits width (value w) := by
  induction ws generalizing k n with
  | nil => simp
  | cons w ws ih =>
    rw [List.forall_mem_cons] at hws
    rw [List.foldl_cons, List.length_cons,
      show k + width * (ws.length + 1) = k + width + width * ws.length by rw [Nat.mul_succ]; omega,
      ih hws.2, lowBits_shiftLeft_or hws.1, List.flatMap_cons, List.append_assoc]

/-- Words of one width are determined by their stream. -/
theorem eq_of_bits_eq (width : Nat) {us ws : Bytes} (hus : ∀ w ∈ us, w.toNat < 2 ^ width)
    (hws : ∀ w ∈ ws, w.toNat < 2 ^ width) (hlen : us.length = ws.length)
    (h : bits width us = bits width ws) : us = ws := by
  induction us generalizing ws with
  | nil =>
    cases ws with
    | nil => rfl
    | cons w ws => simp at hlen
  | cons u us ih =>
    cases ws with
    | nil => simp at hlen
    | cons w ws =>
      rw [bits_cons, bits_cons] at h
      obtain ⟨hhead, htail⟩ := List.append_inj h (by simp)
      have huw : u = w := UInt8.toNat_inj.1
        (eq_of_lowBits_eq (hus u (by simp)) (hws w (by simp)) hhead)
      rw [huw, ih (fun x hx => hus x (by simp [hx])) (fun x hx => hws x (by simp [hx]))
        (by simpa using hlen) htail]

/-- A stream splits in one way into words and less than one word. -/
theorem bits_append_inj {width : Nat} (hpos : 0 < width) {us ws : Bytes} {p q : List Bool}
    (hus : ∀ w ∈ us, w.toNat < 2 ^ width) (hws : ∀ w ∈ ws, w.toNat < 2 ^ width)
    (hp : p.length < width) (hq : q.length < width)
    (h : bits width us ++ p = bits width ws ++ q) : us = ws ∧ p = q := by
  have hsum := congrArg List.length h
  rw [List.length_append, List.length_append, length_bits, length_bits] at hsum
  have hlen : us.length = ws.length := by
    have hdiv : ∀ k r : Nat, r < width → (width * k + r) / width = k := fun k r hr => by
      rw [Nat.mul_add_div hpos, Nat.div_eq_of_lt hr, Nat.add_zero]
    rw [← hdiv us.length p.length hp, hsum, hdiv ws.length q.length hq]
  obtain ⟨hbits, hpq⟩ := List.append_inj h (by simp [hlen])
  exact ⟨eq_of_bits_eq width hus hws hlen hbits, hpq⟩

/-! ## The accumulator -/

theorem toNat_mask {t : Nat} (ht : t ≤ 8) : (mask t).toNat = 2 ^ t - 1 := by
  have hall : ∀ e ∈ List.range 9, (mask e).toNat = 2 ^ e - 1 := by decide
  exact hall t (List.mem_range.mpr (by omega))

theorem toNat_masked {t : Nat} (ht : t ≤ 8) (p : UInt32) :
    (p &&& mask t).toUInt8.toNat = p.toNat % 2 ^ t := by
  have hle : 2 ^ t ≤ 2 ^ 8 := Nat.pow_le_pow_right (by omega) ht
  have hlt : p.toNat % 2 ^ t < 2 ^ t := Nat.mod_lt _ (Nat.two_pow_pos t)
  rw [UInt32.toNat_toUInt8, UInt32.toNat_and, toNat_mask ht, Nat.and_two_pow_sub_one_eq_mod,
    Nat.mod_eq_of_lt (by omega)]

theorem toNat_shiftRight {j : Nat} (hj : j < 32) (p : UInt32) :
    (p >>> UInt32.ofNat j).toNat = p.toNat >>> j := by
  rw [UInt32.toNat_shiftRight, UInt32.toNat_ofNat', Nat.mod_eq_of_lt (show j < 2 ^ 32 by omega),
    Nat.mod_eq_of_lt hj]

theorem toNat_shiftLeft {j : Nat} (hj : j < 32) (p : UInt32) :
    (p <<< UInt32.ofNat j).toNat = (p.toNat <<< j) % 2 ^ 32 := by
  rw [UInt32.toNat_shiftLeft, UInt32.toNat_ofNat', Nat.mod_eq_of_lt (show j < 2 ^ 32 by omega),
    Nat.mod_eq_of_lt hj]

theorem lowBits_mod {k m : Nat} (h : k ≤ m) (n : Nat) : lowBits k (n % 2 ^ m) = lowBits k n := by
  refine lowBits_eq_iff.2 fun i hi => ?_
  rw [Nat.testBit_mod_two_pow]
  simp [show i < m by omega]

/-- Shifting a word in keeps the pending bits, as long as 32 bits hold them all. -/
theorem lowBits_push {count source : Nat} (h : count + source ≤ 32) (hs : source ≤ 8)
    (p : UInt32) {w : UInt8} (hw : w.toNat < 2 ^ source) :
    lowBits (count + source) ((p <<< UInt32.ofNat source) ||| w.toUInt32).toNat =
      lowBits count p.toNat ++ lowBits source w.toNat := by
  rw [← lowBits_shiftLeft_or hw, UInt32.toNat_or, toNat_shiftLeft (by omega),
    UInt8.toNat_toUInt32]
  refine lowBits_eq_iff.2 fun i hi => ?_
  rw [Nat.testBit_or, Nat.testBit_or, Nat.testBit_mod_two_pow]
  simp [show i < 32 by omega]

/-- The whole words at the top of the pending bits, and what is left below them. -/
theorem bits_wholeWords {target : Nat} (ht : target ≤ 8) (p : UInt32) {q r : Nat}
    (h : target * q + r ≤ 32) (hpos : 0 < target) :
    bits target ((List.range q).map fun i =>
        ((p >>> UInt32.ofNat (target * q + r - target * (i + 1))) &&& mask target).toUInt8) ++
      lowBits r p.toNat = lowBits (target * q + r) p.toNat := by
  induction q with
  | zero => simp
  | succ q ih =>
    have hmul : target * (q + 1) = target * q + target := Nat.mul_succ target q
    have hfirst : target * (q + 1) + r - target * (0 + 1) = target * q + r := by omega
    have hrest : ∀ i, target * (q + 1) + r - target * (i + 1 + 1) =
        target * q + r - target * (i + 1) := fun i => by
      have : target * (i + 1 + 1) = target * (i + 1) + target := Nat.mul_succ target (i + 1)
      omega
    rw [List.range_succ_eq_map, List.map_cons, List.map_map, bits_cons, List.append_assoc, hfirst]
    simp only [Function.comp_def, Nat.succ_eq_add_one, hrest]
    rw [ih (by omega), toNat_masked ht, toNat_shiftRight (by omega), lowBits_mod (by omega),
      ← lowBits_add, hmul]
    congr 1
    omega

theorem wholeWords_lt {target count : Nat} (ht : target ≤ 8) {p : UInt32} {w : UInt8}
    (h : w ∈ wholeWords target count p) : w.toNat < 2 ^ target := by
  obtain ⟨i, -, rfl⟩ := List.mem_map.1 h
  rw [toNat_masked ht]
  exact Nat.mod_lt _ (Nat.two_pow_pos target)

theorem toNat_lastWord {target count : Nat} (ht : target ≤ 8) (p : UInt32) :
    (lastWord target count p).toNat = (p.toNat <<< (target - count)) % 2 ^ target := by
  rw [lastWord, toNat_masked ht, toNat_shiftLeft (by omega),
    Nat.mod_mod_of_dvd _ (Nat.pow_dvd_pow 2 (by omega))]

/-- The last word is the pending bits and zeros. -/
theorem lowBits_lastWord {target count : Nat} (ht : target ≤ 8) (hc : count ≤ target)
    (p : UInt32) : lowBits target (lastWord target count p).toNat =
      lowBits count p.toNat ++ List.replicate (target - count) false := by
  have hsplit : target = count + (target - count) := by omega
  rw [toNat_lastWord ht, lowBits_mod (by omega)]
  conv => lhs; rw [hsplit]
  rw [show p.toNat <<< (count + (target - count) - count) =
      p.toNat <<< (target - count) ||| 0 by simp,
    lowBits_shiftLeft_or (Nat.two_pow_pos _), lowBits_zero]

theorem lastWord_lt {target count : Nat} (ht : target ≤ 8) (p : UInt32) :
    (lastWord target count p).toNat < 2 ^ target := by
  rw [toNat_lastWord ht]
  exact Nat.mod_lt _ (Nat.two_pow_pos target)

/-- The last word vanishes just when all pending bits do. -/
theorem lastWord_eq_zero_iff {target count : Nat} (ht : target ≤ 8) (hc : count ≤ target)
    (p : UInt32) :
    lastWord target count p = 0 ↔ lowBits count p.toNat = List.replicate count false := by
  have hrep : List.replicate target false =
      List.replicate count false ++ List.replicate (target - count) false := by
    rw [List.replicate_append_replicate]
    congr 1
    omega
  constructor
  · intro h
    have hbits := lowBits_lastWord ht hc p
    rw [h, UInt8.toNat_zero, lowBits_zero, hrep] at hbits
    exact (List.append_inj hbits (by simp)).1.symm
  · intro h
    refine UInt8.toNat_inj.1 (eq_of_lowBits_eq (lastWord_lt ht p) (Nat.two_pow_pos target) ?_)
    rw [lowBits_lastWord ht hc, h, UInt8.toNat_zero, lowBits_zero, hrep]

/-! ## The loop -/

theorem shiftRight_eq_zero_iff {s : Nat} {w : UInt8} : w.toNat >>> s = 0 ↔ w.toNat < 2 ^ s := by
  rw [Nat.shiftRight_eq_div_pow, Nat.div_eq_zero_iff_lt (Nat.two_pow_pos s)]

/-- One more word that fits: its whole words are given out, and the rest is pending. -/
theorem regroupFrom_cons {source target : Nat} {pad : Bool} {pending : UInt32} {count : Nat}
    {w : UInt8} (hw : w.toNat < 2 ^ source) (ws : Bytes) :
    regroupFrom source target pad pending count (w :: ws) =
      (regroupFrom source target pad ((pending <<< UInt32.ofNat source) ||| w.toUInt32)
        ((count + source) % target) ws).map
          (wholeWords target (count + source)
            ((pending <<< UInt32.ofNat source) ||| w.toUInt32) ++ ·) := by
  rw [regroupFrom, if_neg (by simp [shiftRight_eq_zero_iff.2 hw])]

theorem lt_of_regroupFrom_eq_ok {source target : Nat} {pad : Bool} {pending : UInt32}
    {count : Nat} {ws out : Bytes} (h : regroupFrom source target pad pending count ws = .ok out) :
    ∀ w ∈ ws, w.toNat < 2 ^ source := by
  induction ws generalizing pending count out with
  | nil => simp
  | cons w ws ih =>
    rw [regroupFrom] at h
    split at h
    · simp at h
    · next hw =>
      obtain ⟨rest, hrest, -⟩ := map_eq_ok_iff.1 h
      intro x hx
      rcases List.mem_cons.1 hx with rfl | hx
      · exact shiftRight_eq_zero_iff.1 (Decidable.not_not.1 hw)
      · exact ih hrest x hx

/--
What the loop does to words that fit: it gives out whole words and reaches its end with fewer
than a word's pending bits, and the stream is what was given out and then what is pending.
-/
theorem regroupFrom_spec {source target : Nat} (hs : source ≤ 8) (ht : target ≤ 8) (pad : Bool)
    {ws : Bytes} (hws : ∀ w ∈ ws, w.toNat < 2 ^ source) (pending : UInt32) {count : Nat}
    (hc : count < target) :
    ∃ (out : Bytes) (p : UInt32) (c : Nat), c < target ∧ (∀ o ∈ out, o.toNat < 2 ^ target) ∧
      lowBits count pending.toNat ++ bits source ws = bits target out ++ lowBits c p.toNat ∧
      regroupFrom source target pad pending count ws =
        (regroupFrom source target pad p c []).map (out ++ ·) := by
  induction ws generalizing pending count with
  | nil =>
    refine ⟨[], pending, count, hc, by simp, by simp, ?_⟩
    cases regroupFrom source target pad pending count [] <;> rfl
  | cons w ws ih =>
    have hw : w.toNat < 2 ^ source := hws w (by simp)
    obtain ⟨out, p, c, hcp, hout, hstream, hrun⟩ :=
      ih (fun x hx => hws x (by simp [hx])) ((pending <<< UInt32.ofNat source) ||| w.toUInt32)
        (Nat.mod_lt (count + source) (show 0 < target by omega))
    have hwhole := bits_wholeWords ht ((pending <<< UInt32.ofNat source) ||| w.toUInt32)
      (q := (count + source) / target) (r := (count + source) % target)
      (by rw [Nat.div_add_mod]; omega) (by omega)
    rw [Nat.div_add_mod, lowBits_push (by omega) hs pending hw] at hwhole
    refine ⟨wholeWords target (count + source)
      ((pending <<< UInt32.ofNat source) ||| w.toUInt32) ++ out, p, c, hcp, ?_, ?_, ?_⟩
    · intro o ho
      rcases List.mem_append.1 ho with ho | ho
      · exact wholeWords_lt ht ho
      · exact hout o ho
    · rw [bits_cons, ← List.append_assoc, ← hwhole, bits_append, List.append_assoc,
        List.append_assoc, hstream]
      rfl
    · rw [regroupFrom_cons hw, hrun]
      cases regroupFrom source target pad p c [] <;> simp [Except.map]

variable {source target : Nat}

/-- **Regrouping with padding:** the stream with fewer zeros than a word has added at its end. -/
theorem regroup_padded_iff (hs : source ≤ 8) (hpos : 0 < target) (ht : target ≤ 8)
    {ws out : Bytes} :
    regroup source target true ws = .ok out ↔
      (∀ w ∈ ws, w.toNat < 2 ^ source) ∧ (∀ o ∈ out, o.toNat < 2 ^ target) ∧
        ∃ k < target, bits source ws ++ List.replicate k false = bits target out := by
  have key : ∀ {ws : Bytes}, (∀ w ∈ ws, w.toNat < 2 ^ source) → ∃ full : Bytes,
      regroup source target true ws = .ok full ∧ (∀ o ∈ full, o.toNat < 2 ^ target) ∧
        ∃ k < target, bits source ws ++ List.replicate k false = bits target full := by
    intro ws hws
    obtain ⟨out, p, c, hc, hout, hstream, hrun⟩ := regroupFrom_spec hs ht true hws 0 hpos
    rw [show lowBits 0 (0 : UInt32).toNat = [] from rfl, List.nil_append] at hstream
    rw [regroupFrom, if_pos rfl] at hrun
    by_cases hzero : 0 < c
    · rw [if_pos hzero] at hrun
      refine ⟨_, hrun, ?_, target - c, by omega, ?_⟩
      · intro o ho
        rcases List.mem_append.1 ho with ho | ho
        · exact hout o ho
        · rw [List.mem_singleton.1 ho]
          exact lastWord_lt ht p
      · rw [hstream, bits_append, bits_cons, bits_nil, List.append_nil,
          lowBits_lastWord ht (by omega), List.append_assoc]
    · have hc0 : c = 0 := by omega
      subst hc0
      rw [if_neg hzero] at hrun
      refine ⟨_, hrun, by simpa using hout, 0, hpos, ?_⟩
      simp [hstream, lowBits]
  constructor
  · intro h
    have hws := lt_of_regroupFrom_eq_ok h
    obtain ⟨full, hfull, hlt, hbits⟩ := key hws
    have heq : full = out := by simpa [hfull] using h
    exact ⟨hws, heq ▸ hlt, heq ▸ hbits⟩
  · rintro ⟨hws, hlt, k, hk, hbits⟩
    obtain ⟨full, hfull, hlt', k', hk', hbits'⟩ := key hws
    rw [hfull]
    -- both are the stream and zeros, and the count of zeros is fixed by the length
    have hlen := congrArg List.length hbits
    have hlen' := congrArg List.length hbits'
    simp only [List.length_append, length_bits, List.length_replicate] at hlen hlen'
    have hout : full.length = out.length := by
      rcases Nat.lt_trichotomy full.length out.length with h | h | h
      · have := Nat.mul_le_mul_left target (Nat.succ_le_of_lt h)
        rw [Nat.mul_succ] at this
        omega
      · exact h
      · have := Nat.mul_le_mul_left target (Nat.succ_le_of_lt h)
        rw [Nat.mul_succ] at this
        omega
    have hkk : k = k' := by
      rw [hout] at hlen'
      omega
    subst hkk
    rw [eq_of_bits_eq _ hlt' hlt hout (hbits'.symm.trans hbits)]

/-- **Regrouping without padding:** what is left over at the end is zeros, fewer than a word of
either width has. -/
theorem regroup_exact_iff (hs : source ≤ 8) (hpos : 0 < target) (ht : target ≤ 8)
    {ws out : Bytes} :
    regroup source target false ws = .ok out ↔
      (∀ w ∈ ws, w.toNat < 2 ^ source) ∧ (∀ o ∈ out, o.toNat < 2 ^ target) ∧
        ∃ k, k < source ∧ k < target ∧
          bits source ws = bits target out ++ List.replicate k false := by
  -- the run on words that fit, with the test at its end
  have key : ∀ {ws : Bytes}, (∀ w ∈ ws, w.toNat < 2 ^ source) →
      ∃ (whole : Bytes) (p : UInt32) (c : Nat), c < target ∧
        (∀ o ∈ whole, o.toNat < 2 ^ target) ∧
        bits source ws = bits target whole ++ lowBits c p.toNat ∧
        regroup source target false ws =
          if source ≤ c ∨ lastWord target c p ≠ 0 then .error .padding else .ok whole := by
    intro ws hws
    obtain ⟨whole, p, c, hc, hwhole, hstream, hrun⟩ := regroupFrom_spec hs ht false hws 0 hpos
    rw [show lowBits 0 (0 : UInt32).toNat = [] from rfl, List.nil_append] at hstream
    refine ⟨whole, p, c, hc, hwhole, hstream, ?_⟩
    rw [regroup, hrun, regroupFrom, if_neg (by simp)]
    split <;> simp [Except.map]
  constructor
  · intro h
    have hws := lt_of_regroupFrom_eq_ok h
    obtain ⟨whole, p, c, hc, hwhole, hstream, hrun⟩ := key hws
    rw [h] at hrun
    split at hrun
    · simp at hrun
    · next htest =>
      have hzero := (lastWord_eq_zero_iff ht (Nat.le_of_lt hc) p).1
        (Decidable.not_not.1 (not_or.1 htest).2)
      rw [Except.ok.inj hrun]
      exact ⟨hws, hwhole, c, Nat.lt_of_not_le (not_or.1 htest).1, hc, by rw [hstream, hzero]⟩
  · rintro ⟨hws, hlt, k, hks, hkt, hbits⟩
    obtain ⟨whole, p, c, hc, hwhole, hstream, hrun⟩ := key hws
    obtain ⟨rfl, hrest⟩ := bits_append_inj hpos hwhole hlt (by simpa using hc)
      (by simpa using hkt) (hstream.symm.trans hbits)
    have hck : c = k := by simpa using congrArg List.length hrest
    subst hck
    rw [hrun, if_neg]
    rintro (hle | hne)
    · omega
    · exact hne ((lastWord_eq_zero_iff ht (Nat.le_of_lt hc) p).2 hrest)

/-- **To narrower words and back:** the exact regrouping undoes the padded one, and reads nothing
else. -/
theorem regroup_exact_iff_padded (hpos : 0 < target) (hle : target ≤ source) (hs : source ≤ 8)
    {ws out : Bytes} :
    regroup target source false out = .ok ws ↔ regroup source target true ws = .ok out := by
  rw [regroup_exact_iff (by omega) (by omega) hs, regroup_padded_iff hs hpos (by omega)]
  constructor
  · rintro ⟨hout, hws, k, hk, -, hbits⟩
    exact ⟨hws, hout, k, hk, hbits.symm⟩
  · rintro ⟨hws, hout, k, hk, hbits⟩
    exact ⟨hout, hws, k, hk, by omega, hbits.symm⟩

/-! ## Bytes as words -/

theorem ofBytes_spec (hpos : 0 < target) (ht : target ≤ 8) (bs : Bytes) :
    (∀ w ∈ ofBytes target bs, w.toNat < 2 ^ target) ∧
      ∃ k < target, bits 8 bs ++ List.replicate k false = bits target (ofBytes target bs) := by
  obtain ⟨-, hlt, hbits⟩ := (regroup_padded_iff (by decide) hpos ht).1 (regroup_ofBytes target bs)
  exact ⟨hlt, hbits⟩

theorem lt_of_mem_ofBytes (hpos : 0 < target) (ht : target ≤ 8) {bs : Bytes} {w : UInt8}
    (h : w ∈ ofBytes target bs) : w.toNat < 2 ^ target :=
  (ofBytes_spec hpos ht bs).1 w h

/-- As many words as it takes to hold all bits. -/
theorem length_ofBytes (hpos : 0 < target) (ht : target ≤ 8) (bs : Bytes) :
    (ofBytes target bs).length = (8 * bs.length + target - 1) / target := by
  obtain ⟨-, k, hk, hbits⟩ := ofBytes_spec hpos ht bs
  have hlen := congrArg List.length hbits
  rw [List.length_append, length_bits, length_bits, List.length_replicate] at hlen
  rw [show 8 * bs.length + target - 1 =
      target * (ofBytes target bs).length + (target - 1 - k) by omega,
    Nat.mul_add_div hpos, Nat.div_eq_of_lt (by omega), Nat.add_zero]

/-- **The words of bytes are read back as the bytes,** and no other words are. -/
theorem regroup_eq_ok_iff_ofBytes (hpos : 0 < target) (ht : target ≤ 8) {bs ws : Bytes} :
    regroup target 8 false ws = .ok bs ↔ ws = ofBytes target bs := by
  rw [regroup_exact_iff_padded hpos ht (by decide), regroup_ofBytes, Except.ok.injEq]
  exact eq_comm

/-- The first word holds the top bits of the first byte. -/
theorem ofBytes_cons (hpos : 0 < target) (ht : target ≤ 8) (b : UInt8) (bs : Bytes) :
    ∃ w ws, ofBytes target (b :: bs) = w :: ws ∧ w.toNat = b.toNat >>> (8 - target) := by
  obtain ⟨hlt, k, -, hbits⟩ := ofBytes_spec hpos ht (b :: bs)
  cases hw : ofBytes target (b :: bs) with
  | nil =>
    have hlen := length_ofBytes hpos ht (b :: bs)
    rw [hw, List.length_cons, List.length_nil] at hlen
    have := Nat.div_pos (show target ≤ 8 * (bs.length + 1) + target - 1 by omega) hpos
    omega
  | cons w ws =>
    rw [hw] at hlt hbits
    rw [bits_cons, bits_cons, show 8 = target + (8 - target) by omega, lowBits_add,
      List.append_assoc, List.append_assoc] at hbits
    have hfirst := (List.append_inj hbits (by simp)).1
    refine ⟨w, ws, rfl, (eq_of_lowBits_eq (k := target) ?_ (hlt w (by simp)) ?_).symm⟩
    · have hb : b.toNat < 2 ^ 8 := UInt8.toNat_lt_size b
      rw [Nat.shiftRight_eq_div_pow, Nat.div_lt_iff_lt_mul (Nat.two_pow_pos _), ← Nat.pow_add,
        show target + (8 - target) = 8 by omega]
      exact hb
    · exact hfirst

/-- **Bytes in words of five bits.** All bytes have such words, as many as it takes to hold their
bits: they stand for the whole stream, with zeros behind it that fill up the last word, and the
bytes are read back from them. From a list of words just those bytes are read whose words they
are. -/
theorem bytes_in_words_of_five (bs : Bytes) :
    (∃ ws, regroup 8 5 true bs = .ok ws ∧ (∀ w ∈ ws, w.toNat < 32) ∧
      ws.length = (8 * bs.length + 4) / 5 ∧
      (∃ k < 5, bits 8 bs ++ List.replicate k false = bits 5 ws) ∧
      regroup 5 8 false ws = .ok bs) ∧
    ∀ ws, regroup 5 8 false ws = .ok bs ↔ regroup 8 5 true bs = .ok ws := by
  have hback : ∀ ws, regroup 5 8 false ws = .ok bs ↔ regroup 8 5 true bs = .ok ws :=
    fun ws => regroup_exact_iff_padded (by decide) (by decide) (by decide)
  obtain ⟨hlt, hbits⟩ := @ofBytes_spec 5 (by decide) (by decide) bs
  have hlen := @length_ofBytes 5 (by decide) (by decide) bs
  have hwords := regroup_ofBytes 5 bs
  exact ⟨⟨ofBytes 5 bs, hwords, hlt, hlen, hbits, (hback _).2 hwords⟩, hback⟩

end CoinAddress.Regroup

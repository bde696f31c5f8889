import CoinAddress.Proofs.ChecksumCode
import CoinAddress.Proofs.Differences

/-!
# How far apart the words of a code are

Two lists of words with the same remainder differ over a stretch that is longer than the checksum:
`differOver_of_residue_eq`. That holds for every sound code and lists of any length.

In how many positions they differ depends on the generator. One changed word cannot be hidden. A
second one hides it only if the first change, shifted on to the position of the second, is a single
word again; for a code where this does not happen within the length of the lists, they differ in
three positions: `three_le_of_residue_eq`.
-/

namespace CoinAddress

/-- The characters of words differ where the words do. -/
theorem Base32.differences_encode {us ws : Bytes} (hus : ∀ w ∈ us, w.toNat < 32)
    (hws : ∀ w ∈ ws, w.toNat < 32) : differences (encode us) (encode ws) = differences us ws := by
  refine differences_map fun u hu w hw h => ?_
  have hread := value?_digit (hus u hu)
  rw [h, value?_digit (hws w hw)] at hread
  exact (Option.some.inj hread).symm

namespace CyclicCode

variable {g : CyclicCode}

/-- **Lists with the same remainder do not differ within the width of the checksum.** -/
theorem differOver_of_residue_eq (hg : g.Sound) {front us ws : Bytes} (hus : ∀ w ∈ us, w.toNat < 32)
    (hws : ∀ w ∈ ws, w.toNat < 32) (hlen : us.length = ws.length) (hne : us ≠ ws)
    (h : g.residue (front ++ us) = g.residue (front ++ ws)) :
    DifferOver g.checksumWords us ws := by
  refine differOver_of_ne hlen hne ?_
  rintro before us' ws' after rfl rfl hlen' hshort
  refine eq_of_residue_eq hg (front ++ before) after (fun w hw => hus w (by simp [hw]))
    (fun w hw => hws w (by simp [hw])) hlen' hshort ?_
  simpa only [List.append_assoc] using h

/-- The same in characters, for words with their checksums. -/
theorem differOver_encode_withChecksum (hg : g.Sound) {target : Nat}
    (ht : target < 2 ^ g.residueBits) (front : Bytes) {us ws : Bytes} (hus : ∀ w ∈ us, w.toNat < 32)
    (hws : ∀ w ∈ ws, w.toNat < 32) (hlen : us.length = ws.length)
    (hne : g.withChecksum target front us ≠ g.withChecksum target front ws) :
    DifferOver g.checksumWords (Base32.encode (g.withChecksum target front us))
      (Base32.encode (g.withChecksum target front ws)) := by
  have hus' : ∀ w ∈ g.withChecksum target front us, w.toNat < 32 := lt_of_mem_withChecksum hus
  have hws' : ∀ w ∈ g.withChecksum target front ws, w.toNat < 32 := lt_of_mem_withChecksum hws
  rw [DifferOver, Base32.differences_encode hus' hws']
  refine differOver_of_residue_eq hg hus' hws' ?_ hne
    ((residue_withChecksum hg ht front us).trans (residue_withChecksum hg ht front ws).symm)
  rw [length_withChecksum, length_withChecksum, hlen]

/-! ## Two changed words -/

/-- No change of one word is a change of one word again when it is shifted on by less than `n`
positions. -/
def Separates (g : CyclicCode) (n : Nat) : Prop :=
  ∀ e < 32, 0 < e → ∀ k < n, 0 < k → 32 ≤ g.shift^[k] e

/-- Whether a remainder is more than a word after each of some shifts. -/
def staysWide (g : CyclicCode) : Nat → Nat → Bool
  | 0, _ => true
  | k + 1, r => decide (32 ≤ g.shift r) && g.staysWide k (g.shift r)

theorem le_iterate_of_staysWide {n r : Nat} (h : g.staysWide n r) :
    ∀ k ≤ n, 0 < k → 32 ≤ g.shift^[k] r := by
  induction n generalizing r with
  | zero => intro k hk hpos; omega
  | succ n ih =>
    obtain ⟨hfirst, hrest⟩ := Bool.and_eq_true_iff.1 h
    intro k hk hpos
    obtain ⟨k, rfl⟩ := Nat.exists_eq_succ_of_ne_zero (Nat.pos_iff_ne_zero.1 hpos)
    rw [Function.iterate_succ_apply]
    rcases Nat.eq_zero_or_pos k with rfl | hk'
    · exact of_decide_eq_true hfirst
    · exact ih hrest k (by omega) hk'

theorem separates_cashAddr : CashAddr.code.Separates 42 := by
  have hall : (List.range 32).all fun e => e == 0 || CashAddr.code.staysWide 41 e := by
    decide +kernel
  intro e he hpos k hk
  have hwide := List.all_eq_true.1 hall e (List.mem_range.2 he)
  rw [Bool.or_eq_true, beq_iff_eq] at hwide
  exact le_iterate_of_staysWide (hwide.resolve_left (by omega)) k (by omega)

/-- With the same remainder, lists do not differ in two words only that are this far apart. -/
theorem eq_of_residue_eq_ends (hg : g.Sound) {n : Nat} (hsep : g.Separates n)
    (before mid after : Bytes) {x x' y y' : UInt8} (hx : x.toNat < 32) (hx' : x'.toNat < 32)
    (hy : y.toNat < 32) (hy' : y'.toNat < 32) (hmid : mid.length + 1 < n)
    (h : g.residue (before ++ (x :: mid ++ [y]) ++ after) =
      g.residue (before ++ (x' :: mid ++ [y']) ++ after)) : x = x' := by
  rw [residue, residue, foldl_step_eq_run hg, foldl_step_eq_run hg] at h
  have hrun := ShiftRegister.eq_of_run_eq (R := register hg) (toNat_lt hg) (one_lt hg) (by simp) h
  have hshift : g.shift^[mid.length + 1] (x.toNat ^^^ x'.toNat) = y.toNat ^^^ y'.toNat :=
    ShiftRegister.iterate_shift_of_run_eq (R := register hg) hrun
  have hlast : y.toNat ^^^ y'.toNat < 2 ^ 5 := Nat.xor_lt_two_pow hy hy'
  have hfirst : x.toNat ^^^ x'.toNat < 2 ^ 5 := Nat.xor_lt_two_pow hx hx'
  -- a change of the first word would be more than a word at the place of the second
  by_contra hne
  have hpos : 0 < x.toNat ^^^ x'.toNat := by
    rw [Nat.pos_iff_ne_zero, ne_eq, Nat.xor_eq_zero_iff, UInt8.toNat_inj]
    exact hne
  have hwide : 32 ≤ g.shift^[mid.length + 1] (x.toNat ^^^ x'.toNat) :=
    hsep _ hfirst hpos _ hmid (Nat.succ_pos _)
  rw [hshift] at hwide
  omega

/-- **Lists with the same remainder differ in three positions,** up to the length for which the code
separates single changes. -/
theorem three_le_of_residue_eq (hg : g.Sound) {n : Nat} (hsep : g.Separates n)
    {front us ws : Bytes} (hus : ∀ w ∈ us, w.toNat < 32) (hws : ∀ w ∈ ws, w.toNat < 32)
    (hlen : us.length = ws.length) (hshort : us.length ≤ n) (hne : us ≠ ws)
    (h : g.residue (front ++ us) = g.residue (front ++ ws)) :
    3 ≤ (differences us ws).length := by
  obtain ⟨before, x, x', us', ws', rfl, rfl, hx, hlen'⟩ := exists_first_difference hlen hne
  have hx32 : x.toNat < 32 := hus x (by simp)
  have hx32' : x'.toNat < 32 := hws x' (by simp)
  rw [length_differences_first before hx]
  by_cases hne' : us' = ws'
  · -- a single change
    subst hne'
    have hwidth := hg.two_le
    have hword : [x] = [x'] := eq_of_residue_eq hg (front ++ before) us' (by simpa using hx32)
      (by simpa using hx32') rfl (by simp only [List.length_singleton]; omega)
      (by simpa only [List.append_assoc, List.singleton_append] using h)
    exact absurd (List.cons.inj hword).1 hx
  · obtain ⟨mid, y, y', us'', ws'', rfl, rfl, hy, hlen''⟩ := exists_first_difference hlen' hne'
    rw [length_differences_first mid hy]
    by_cases hne'' : us'' = ws''
    · -- two changes
      subst hne''
      have hmid : mid.length + 1 < n := by
        simp only [List.length_append, List.length_cons] at hshort
        omega
      refine absurd (eq_of_residue_eq_ends hg hsep (front ++ before) mid us'' hx32 hx32'
        (hus y (by simp)) (hws y' (by simp)) hmid ?_) hx
      simpa only [List.append_assoc, List.cons_append, List.nil_append] using h
    · have hmore : differences us'' ws'' ≠ [] :=
        fun hnil => hne'' ((differences_eq_nil_iff hlen'').1 hnil)
      have := List.length_pos_iff.2 hmore
      omega

end CyclicCode

end CoinAddress

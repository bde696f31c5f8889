import CoinAddress.Text.Basic
import Mathlib.Data.List.Basic

/-!
# Where two lists differ

The positions at which two lists of one length differ, in increasing order. Their number is the
distance of the lists; the first and the last of them bound the stretch outside of which the lists
agree.

* `differences_append`: the positions in two parts are those in the one and in the other.
* `exists_stretch`: lists that differ are the same before the first position and behind the last.
* `differOver_of_ne`, `not_differOver_stretch`: the first position and the last are this far apart
  just when the lists do not differ within a stretch of that length.
-/

namespace CoinAddress

variable {α β : Type} [DecidableEq α] [DecidableEq β]

/-- The positions at which two lists of one length differ. -/
def differences (a b : List α) : List Nat := (List.range a.length).filter fun i => a[i]? ≠ b[i]?

theorem mem_differences {a b : List α} {i : Nat} :
    i ∈ differences a b ↔ i < a.length ∧ a[i]? ≠ b[i]? := by
  rw [differences, List.mem_filter, List.mem_range, decide_eq_true_eq]

theorem differences_cons (x y : α) (a b : List α) : differences (x :: a) (y :: b) =
    (if x = y then [] else [0]) ++ (differences a b).map (· + 1) := by
  rw [differences, List.length_cons, List.range_succ_eq_map, List.filter_cons, List.filter_map]
  by_cases h : x = y <;> simp [h, differences, Function.comp_def]

theorem differences_self (a : List α) : differences a a = [] := by simp [differences]

/-- Where two lists differ that are each put together of two parts. -/
theorem differences_append {a b : List α} (h : a.length = b.length) (c d : List α) :
    differences (a ++ c) (b ++ d) = differences a b ++ (differences c d).map (a.length + ·) := by
  induction a generalizing b with
  | nil =>
    obtain rfl := List.length_eq_zero_iff.1 h.symm
    simp [differences_self]
  | cons x a ih =>
    cases b with
    | nil => cases h
    | cons y b =>
      have hshift : ((· + 1) ∘ (a.length + ·) : Nat → Nat) = ((x :: a).length + ·) := by
        funext i
        rw [Function.comp_apply, List.length_cons, Nat.add_right_comm]
      rw [List.cons_append, List.cons_append, differences_cons, differences_cons,
        ih (Nat.succ.inj h), List.map_append, List.map_map, List.append_assoc, hshift]

theorem differences_eq_nil_iff {a b : List α} (h : a.length = b.length) :
    differences a b = [] ↔ a = b := by
  constructor
  · intro hnil
    refine List.ext_getElem? fun i => ?_
    by_contra hne
    have hlt : i < a.length := by
      by_contra hge
      rw [List.getElem?_eq_none (by omega), List.getElem?_eq_none (by omega)] at hne
      exact hne rfl
    have hmem := mem_differences.2 ⟨hlt, hne⟩
    rw [hnil] at hmem
    cases hmem
  · rintro rfl
    exact differences_self a

/-- What stands for other things one by one differs where they do. -/
theorem differences_map {f : α → β} {a b : List α}
    (hf : ∀ x ∈ a, ∀ y ∈ b, f x = f y → x = y) :
    differences (a.map f) (b.map f) = differences a b := by
  rw [differences, differences, List.length_map]
  refine List.filter_congr fun i _ => ?_
  rw [List.getElem?_map, List.getElem?_map, decide_eq_decide, not_iff_not]
  cases ha : a[i]? with
  | none => cases b[i]? <;> simp
  | some x =>
    cases hb : b[i]? with
    | none => simp
    | some y =>
      have hxy := hf x (List.mem_of_getElem? ha) y (List.mem_of_getElem? hb)
      simp only [Option.map_some, Option.some.injEq]
      exact ⟨hxy, congrArg f⟩

/-! ## The first and the last position -/

/-- Lists that differ are the same up to a first difference. -/
theorem exists_first_difference {a b : List α} (h : a.length = b.length) (hne : a ≠ b) :
    ∃ before x y c d, a = before ++ x :: c ∧ b = before ++ y :: d ∧ x ≠ y ∧
      c.length = d.length := by
  induction a generalizing b with
  | nil => exact absurd (List.length_eq_zero_iff.1 h.symm).symm hne
  | cons x a ih =>
    cases b with
    | nil => cases h
    | cons y b =>
      by_cases hxy : x = y
      · subst hxy
        obtain ⟨before, x', y', c, d, rfl, rfl, hx, hlen⟩ :=
          ih (Nat.succ.inj h) fun hab => hne (hab ▸ rfl)
        exact ⟨x :: before, x', y', c, d, rfl, rfl, hx, hlen⟩
      · exact ⟨[], x, y, a, b, rfl, rfl, hxy, Nat.succ.inj h⟩

/-- Lists that differ are the same behind a last difference. -/
theorem exists_last_difference {a b : List α} (h : a.length = b.length) (hne : a ≠ b) :
    ∃ c d x y after, a = c ++ x :: after ∧ b = d ++ y :: after ∧ x ≠ y ∧ c.length = d.length := by
  obtain ⟨after, x, y, c, d, ha, hb, hxy, hlen⟩ := exists_first_difference
    (a := a.reverse) (b := b.reverse) (by simpa using h) (by simpa using hne)
  refine ⟨c.reverse, d.reverse, x, y, after.reverse, ?_, ?_, hxy, by simpa using hlen⟩
  · rw [← a.reverse_reverse, ha]
    simp
  · rw [← b.reverse_reverse, hb]
    simp

theorem length_differences_first (before : List α) {x y : α} (hxy : x ≠ y) (c d : List α) :
    (differences (before ++ x :: c) (before ++ y :: d)).length = (differences c d).length + 1 := by
  rw [differences_append rfl, differences_self, differences_cons, if_neg hxy]
  simp

/-- **Lists that differ have a stretch in the middle** that reaches from the first position to the
last, and are the same on both sides of it. -/
theorem exists_stretch {a b : List α} (h : a.length = b.length) (hne : a ≠ b) :
    ∃ before us ws after, a = before ++ us ++ after ∧ b = before ++ ws ++ after ∧
      us.length = ws.length ∧ us ≠ ws ∧ (differences a b).head? = some before.length ∧
        (differences a b).getLast? = some (before.length + (us.length - 1)) := by
  obtain ⟨before, x, y, c, d, rfl, rfl, hxy, hlen⟩ := exists_first_difference h hne
  obtain ⟨us, ws, z, w, after, hus, hws, hzw, hlen'⟩ :=
    exists_last_difference (a := x :: c) (b := y :: d) (by simpa using hlen) (by simp [hxy])
  refine ⟨before, us ++ [z], ws ++ [w], after, by simp [hus], by simp [hws], by simp [hlen'],
    fun heq => hzw (by simpa using (List.append_inj heq hlen').2), ?_, ?_⟩
  · rw [differences_append rfl, differences_self, differences_cons, if_neg hxy]
    simp
  · rw [hus, hws, differences_append rfl, differences_self, differences_append hlen',
      differences_cons, if_neg hzw, differences_self]
    simp

/-- The first difference and the last one are at least this far apart. -/
def DifferOver (n : Nat) (a b : List α) : Prop :=
  ∃ i j, (differences a b).head? = some i ∧ (differences a b).getLast? = some j ∧ i + n ≤ j

/-- It is enough that any two differences are, since the positions are in order. -/
theorem differOver_iff {n : Nat} {a b : List α} : DifferOver n a b ↔
    ∃ i ∈ differences a b, ∃ j ∈ differences a b, i + n ≤ j := by
  constructor
  · rintro ⟨i, j, hi, hj, hij⟩
    exact ⟨i, List.mem_of_mem_head? hi, j, List.mem_of_mem_getLast? hj, hij⟩
  · rintro ⟨i, hi, j, hj, hij⟩
    have hsorted : (differences a b).Pairwise (· < ·) := List.pairwise_lt_range.filter _
    have hne : differences a b ≠ [] := List.ne_nil_of_mem hi
    refine ⟨_, _, List.head?_eq_some_head hne, List.getLast?_eq_some_getLast hne, ?_⟩
    have hfirst : (differences a b).head hne ≤ i := by
      generalize differences a b = l at *
      cases l with
      | nil => cases hi
      | cons x l =>
        rcases List.mem_cons.1 hi with rfl | hi
        · exact Nat.le_refl _
        · exact Nat.le_of_lt ((List.pairwise_cons.1 hsorted).1 i hi)
    have hlast : j ≤ (differences a b).getLast hne := by
      rw [← List.dropLast_append_getLast hne] at hsorted hj
      rcases List.mem_append.1 hj with hj | hj
      · exact Nat.le_of_lt ((List.pairwise_append.1 hsorted).2.2 j hj _ (List.mem_singleton.2 rfl))
      · exact Nat.le_of_eq (List.mem_singleton.1 hj)
    omega

/-- Lists that differ wherever others do differ over as long a stretch. -/
theorem DifferOver.mono {n : Nat} {a b : List α} {c d : List β} (h : DifferOver n a b)
    (hmem : ∀ i ∈ differences a b, i ∈ differences c d) : DifferOver n c d := by
  obtain ⟨i, hi, j, hj, hij⟩ := differOver_iff.1 h
  exact differOver_iff.2 ⟨i, hmem i hi, j, hmem j hj, hij⟩

theorem DifferOver.append_left {n : Nat} {a b : List α} (h : DifferOver n a b) (front : List α) :
    DifferOver n (front ++ a) (front ++ b) := by
  obtain ⟨i, hi, j, hj, hij⟩ := differOver_iff.1 h
  rw [differOver_iff, differences_append rfl, differences_self, List.nil_append]
  exact ⟨_, List.mem_map_of_mem hi, _, List.mem_map_of_mem hj, by omega⟩

theorem DifferOver.append_right {n : Nat} {a b : List α} (h : DifferOver n a b)
    (hlen : a.length = b.length) (back : List α) : DifferOver n (a ++ back) (b ++ back) := by
  rw [DifferOver, differences_append hlen, differences_self, List.map_nil, List.append_nil]
  exact h

theorem DifferOver.ne {n : Nat} {a b : List α} (h : DifferOver n a b) : a ≠ b := by
  rintro rfl
  obtain ⟨i, j, hi, -⟩ := h
  rw [differences_self] at hi
  cases hi

/-- **Lists that do not differ in one short stretch only** differ over a longer one. -/
theorem differOver_of_ne {n : Nat} {a b : List α} (hlen : a.length = b.length) (hne : a ≠ b)
    (h : ∀ before us ws after, a = before ++ us ++ after → b = before ++ ws ++ after →
      us.length = ws.length → us.length ≤ n → us = ws) : DifferOver n a b := by
  obtain ⟨before, us, ws, after, ha, hb, hlen', hne', hfirst, hlast⟩ := exists_stretch hlen hne
  refine ⟨_, _, hfirst, hlast, ?_⟩
  by_contra hshort
  exact hne' (h before us ws after ha hb hlen' (by omega))

/-- Where only a stretch is exchanged, the lists differ in that stretch. -/
theorem mem_differences_stretch {before us ws after : List α} (h : us.length = ws.length) {i : Nat}
    (hi : i ∈ differences (before ++ us ++ after) (before ++ ws ++ after)) :
    before.length ≤ i ∧ i < before.length + us.length := by
  rw [differences_append (by simp [h]), differences_append rfl, differences_self, differences_self,
    List.nil_append, List.map_nil, List.append_nil, List.mem_map] at hi
  obtain ⟨j, hj, rfl⟩ := hi
  have hlt := (mem_differences.1 hj).1
  omega

/-- Where only a short stretch is exchanged, the lists do not differ over a longer one. -/
theorem not_differOver_stretch {n : Nat} {us ws : List α} (hlen : us.length = ws.length)
    (hshort : us.length ≤ n) (before after : List α) :
    ¬ DifferOver n (before ++ us ++ after) (before ++ ws ++ after) := by
  intro h
  obtain ⟨i, hi, j, hj, hij⟩ := differOver_iff.1 h
  have hlow := (mem_differences_stretch hlen hi).1
  have hhigh := (mem_differences_stretch hlen hj).2
  omega

end CoinAddress

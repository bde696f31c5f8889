import CoinAddress.Path.Parser
import CoinAddress.Proofs.Numeral
import CoinAddress.Proofs.Trimmed
import Mathlib.Algebra.Ring.Nat

/-!
# Which texts are derivation paths

A path is written as an `m` of either case and its steps, a slash in front of each; a step is a
number below 2^31 and at most one mark behind it. White space around the whole and around each step
does not count. That is `DerivationPath.Written`, and reading takes just the texts that are so
written: `parse_iff_written`. Every other text is refused for its encoding.

Neither a number nor a mark has a slash in it, so the steps are the pieces between the slashes.
-/

namespace CoinAddress

namespace PathStep

/-- What may stand behind the number of a step, hardened or not. -/
def marks : Bool → List Text
  | true => [['\x27'], ['h'], ['H']]
  | false => [[]]

/-- The texts of a step: a spelling of its number and a mark of its hardening, in white space. -/
def Written (step : PathStep) (s : Text) : Prop :=
  step.index.toNat < 2 ^ 31 ∧ ∃ number mark, Text.trim s = number ++ mark ∧
    Text.NatNumeral number step.index.toNat ∧ mark ∈ marks step.hardened

end PathStep

/-- The texts of a path: an `m` and the texts of its steps, of which there is at least one, with a
slash in front of each, in white space. -/
def DerivationPath.Written (path : DerivationPath) (s : Text) : Prop :=
  ∃ root parts, (root = 'm' ∨ root = 'M') ∧ parts ≠ [] ∧
    Text.trim s = root :: '/' :: Text.joinWith ['/'] parts ∧
      List.Forall₂ PathStep.Written path.steps parts

/-! ## One step -/

namespace PathStep

/-- The marks of one character. -/
theorem mem_marks_true {mark : Text} :
    mark ∈ marks true ↔ ∃ c, mark = [c] ∧ (c = '\x27' ∨ c = 'h' ∨ c = 'H') := by
  simp only [marks, List.mem_cons, List.not_mem_nil, or_false]
  constructor
  · rintro (rfl | rfl | rfl) <;> simp
  · rintro ⟨c, rfl, rfl | rfl | rfl⟩ <;> simp

/-- A text is its number and its mark. -/
theorem exists_mark_of_splitMark (s : Text) :
    ∃ mark ∈ marks (splitMark s).2, s = (splitMark s).1 ++ mark := by
  have hnone : ∃ mark ∈ marks false, s = s ++ mark := ⟨[], by simp [marks], by simp⟩
  unfold splitMark
  split
  · next c hc =>
    split
    · next hmark =>
      exact ⟨[c], mem_marks_true.2 ⟨c, rfl, hmark⟩, (List.dropLast_append_getLast? c hc).symm⟩
    · exact hnone
  · exact hnone

/-- A digit is no mark, so a number loses nothing with the mark. -/
theorem splitMark_append {number mark : Text} {n : Nat} {hardened : Bool}
    (hnumber : Text.NatNumeral number n) (hmark : mark ∈ marks hardened) :
    splitMark (number ++ mark) = (number, hardened) := by
  cases hardened with
  | true =>
    obtain ⟨c, rfl, hc⟩ := mem_marks_true.1 hmark
    rw [splitMark, List.getLast?_concat]
    simp only [if_pos hc, List.dropLast_concat]
  | false =>
    obtain rfl := List.mem_singleton.1 hmark
    obtain ⟨c, hlast, hdigit⟩ := hnumber.getLast
    rw [List.append_nil, splitMark, hlast]
    refine if_neg ?_
    rintro (rfl | rfl | rfl)
    · simp at hdigit
    · simp at hdigit
    · simp at hdigit

theorem parse_eq_ok_iff {s : Text} {step : PathStep} : parse s = .ok step ↔ step.Written s := by
  constructor
  · intro h
    simp only [parse] at h
    split at h
    · cases h
    · split at h
      · cases h
      · next n hn =>
        obtain ⟨hlt, h⟩ := guard_eq_ok_iff.1 h
        cases h
        obtain ⟨hnumber, hle⟩ := Text.readNat_eq_ok_iff.1 hn
        obtain ⟨mark, hmark, htrim⟩ := exists_mark_of_splitMark (Text.trim s)
        have hindex : (UInt32.ofNat n).toNat = n :=
          UInt32.toNat_ofNat_of_lt' (Nat.lt_trans hlt (by decide))
        refine ⟨?_, _, mark, htrim, ?_, hmark⟩
        · rw [hindex]
          omega
        · rwa [hindex]
  · rintro ⟨hlt, number, mark, htrim, hnumber, hmark⟩
    have hread : Text.readNat (UInt32.size - 1) number = .ok step.index.toNat :=
      Text.readNat_eq_ok_iff.2 ⟨hnumber, Nat.le_sub_one_of_lt step.index.toNat_lt⟩
    have hne : number ++ mark ≠ [] := by
      obtain ⟨c, hc, -⟩ := hnumber.getLast
      rintro h
      rw [(List.append_eq_nil_iff.1 h).1] at hc
      cases hc
    unfold parse
    rw [htrim, if_neg hne, splitMark_append hnumber hmark]
    simp only [hread]
    rw [if_pos (by omega), UInt32.ofNat_toNat]

theorem Written.slash_not_mem {step : PathStep} {s : Text} (h : step.Written s) : '/' ∉ s := by
  obtain ⟨-, number, mark, htrim, hnumber, hmark⟩ := h
  intro hmem
  rcases Text.mem_trim_or_isBlank hmem with hmem | hblank
  · rw [htrim, List.mem_append] at hmem
    rcases hmem with hmem | hmem
    · rcases hnumber.eq_or_isDigit hmem with h | h
      · cases h
      · cases h
    · have hmarks : ∀ hardened, ∀ mark ∈ marks hardened, '/' ∉ mark := by decide
      exact hmarks _ _ hmark hmem
  · cases hblank

end PathStep

/-! ## A path -/

namespace DerivationPath

theorem belowRoot?_eq_some_iff {s rest : Text} :
    belowRoot? s = some rest ↔ ∃ root, (root = 'm' ∨ root = 'M') ∧ s = root :: '/' :: rest := by
  constructor
  · intro h
    unfold belowRoot? at h
    split at h
    · cases h
      exact ⟨'m', .inl rfl, rfl⟩
    · cases h
      exact ⟨'M', .inr rfl, rfl⟩
    · cases h
  · rintro ⟨root, rfl | rfl, rfl⟩
    · rfl
    · rfl

theorem parseSteps_eq_mapM (parts : List Text) : parseSteps parts = parts.mapM PathStep.parse := by
  induction parts with
  | nil => rfl
  | cons part parts ih => rw [parseSteps, ih, List.mapM_cons]; rfl

theorem parseSteps_eq_ok_iff {parts : List Text} {steps : List PathStep} :
    parseSteps parts = .ok steps ↔ List.Forall₂ PathStep.Written steps parts := by
  rw [parseSteps_eq_mapM, mapM_eq_ok_iff]
  simp only [PathStep.parse_eq_ok_iff]
  exact ⟨List.Forall₂.flip, List.Forall₂.flip⟩

/-- No piece that is a step has a slash, so the pieces are found again. -/
theorem splitOn_joinWith {parts : List Text} {steps : List PathStep} (hne : parts ≠ [])
    (h : List.Forall₂ PathStep.Written steps parts) :
    (Text.joinWith ['/'] parts).splitOn '/' = parts := by
  have hparts :
      List.Forall₂ (fun part step => '/' ∉ part ∧ PathStep.Written step part) parts steps :=
    (h.imp fun _ _ hstep => ⟨hstep.slash_not_mem, hstep⟩).flip
  exact List.splitOn_intercalate '/' ((List.forall₂_and_left _ _).1 hparts).1 hne

/-- A slash is followed by more of the path. -/
theorem joinWith_ne_nil {parts : List Text} {steps : List PathStep} (hne : parts ≠ [])
    (h : List.Forall₂ PathStep.Written steps parts) :
    Text.joinWith ['/'] parts ≠ [] := by
  intro hnil
  have hparts := splitOn_joinWith hne h
  rw [hnil, List.splitOn_nil] at hparts
  subst hparts
  obtain ⟨step, -, ⟨-, number, mark, htrim, hnumber, -⟩, -⟩ := List.forall₂_cons_right_iff.1 h
  obtain ⟨c, hc, -⟩ := hnumber.getLast
  rw [(List.append_eq_nil_iff.1 htrim.symm).1] at hc
  cases hc

theorem read_eq_ok_iff {s : Text} {path : DerivationPath} :
    read s = .ok path ↔ path.Written s := by
  constructor
  · intro h
    unfold read at h
    split at h
    · cases h
    · cases h
    · next rest hne hroot =>
      obtain ⟨root, hm, htrim⟩ := belowRoot?_eq_some_iff.1 hroot
      obtain ⟨steps, hsteps, rfl⟩ := map_eq_ok_iff.1 h
      refine ⟨root, rest.splitOn '/', hm, List.splitOn_ne_nil _ _, ?_,
        parseSteps_eq_ok_iff.1 hsteps⟩
      rw [Text.joinWith, List.intercalate_splitOn, htrim]
  · rintro ⟨root, parts, hm, hne, htrim, hsteps⟩
    have hroot := belowRoot?_eq_some_iff.2 ⟨root, hm, htrim⟩
    rw [read, hroot]
    obtain ⟨c, rest, hrest⟩ := List.exists_cons_of_ne_nil (joinWith_ne_nil hne hsteps)
    rw [hrest]
    simp only
    rw [← hrest, splitOn_joinWith hne hsteps, map_eq_ok_iff]
    exact ⟨path.steps, parseSteps_eq_ok_iff.2 hsteps, rfl⟩

theorem parse_eq_ok_iff {s : Text} {path : DerivationPath} :
    parse s = .ok path ↔ path.Written s := by
  rw [parse, mapError_eq_ok_iff, read_eq_ok_iff]

/-- **A text is read as a path just when it is one of the texts of the path.** The steps come out as
they are written, in order. Every other text is refused for its encoding. -/
theorem parse_iff_written (s : Text) :
    (∀ path, parse s = .ok path ↔ path.Written s) ∧
    ((∃ fault, parse s = .error (.invalidEncoding (.path s fault))) ↔
      ¬ ∃ path, DerivationPath.Written path s) := by
  refine ⟨fun path => parse_eq_ok_iff, ?_⟩
  have herror : (∃ fault, parse s = .error (.invalidEncoding (.path s fault))) ↔
      ∃ e, parse s = .error e := by
    constructor
    · rintro ⟨fault, hfault⟩
      exact ⟨_, hfault⟩
    · rintro ⟨e, he⟩
      obtain ⟨fault, -, rfl⟩ := mapError_eq_error_iff.1 he
      exact ⟨fault, he⟩
  rw [herror, exists_error_iff, not_exists]
  simp only [ne_eq, parse_eq_ok_iff]

example : parse " M/44h/ +060H /0".toList = .ok ⟨[⟨44, true⟩, ⟨60, true⟩, ⟨0, false⟩]⟩ := by
  decide +kernel

end DerivationPath

end CoinAddress

import CoinAddress.Proofs.PathText

/-!
# What tells derivation paths apart

A path that was read is written as one of its texts, and from the list of its full indices each step
can be taken back: the lower bits are its number and the top bit its hardening. So a path, its text
and its full indices say the same: `parsed_path_forms`.

Both need numbers below 2^31, which reading checks. A larger number would be written as a text that
is not read, and its top bit would pass for hardening.
-/

namespace CoinAddress

theorem Text.isBlank_of_isDigit {c : Char} (h : c.isDigit = true) : Text.isBlank c = false := by
  have hle : 0x30 ≤ c.toNat ∧ c.toNat ≤ 0x39 := Char.isDigit_iff_toNat.1 h
  simp only [Text.isBlank, Bool.or_eq_false_iff, Bool.and_eq_false_iff, decide_eq_false_iff_not,
    beq_eq_false_iff_ne]
  omega

namespace PathStep

/-! ## One step -/

/-- The step with this full index. -/
def ofFullIndex (n : UInt32) : PathStep := ⟨n % hardenedBit, decide (hardenedBit ≤ n)⟩

/-- The bit of a hardened step is added on top of the index. -/
theorem toNat_fullIndex {step : PathStep} (h : step.index.toNat < 2 ^ 31) :
    step.fullIndex.toNat = step.index.toNat + if step.hardened then 2 ^ 31 else 0 := by
  unfold fullIndex
  split
  · have hor := Nat.two_pow_add_eq_or_of_lt h 1
    rw [Nat.mul_one] at hor
    rw [UInt32.toNat_or, Nat.or_comm, show hardenedBit.toNat = 2 ^ 31 from rfl, ← hor, Nat.add_comm]
  · rfl

/-- Below 2^31 the hardening does not get in the way of the number. -/
theorem ofFullIndex_fullIndex {step : PathStep} (h : step.index.toNat < 2 ^ 31) :
    ofFullIndex step.fullIndex = step := by
  have hfull := toNat_fullIndex h
  have hbit : hardenedBit.toNat = 2 ^ 31 := rfl
  have hindex : step.fullIndex % hardenedBit = step.index := by
    rw [← UInt32.toNat_inj, UInt32.toNat_mod, hfull, hbit]
    split <;> omega
  have hhardened : hardenedBit ≤ step.fullIndex ↔ step.hardened = true := by
    rw [UInt32.le_iff_toNat_le, hfull, hbit]
    split
    · simp_all
    · simp_all
  simp only [ofFullIndex, hindex, hhardened, Bool.decide_eq_true]

theorem isBlank_of_mem_toText {step : PathStep} {c : Char} (h : c ∈ step.toText) :
    Text.isBlank c = false := by
  rcases List.mem_append.1 h with hc | hc
  · exact Text.isBlank_of_isDigit (List.all_eq_true.1 (Text.all_isDigit_ofNat _) c hc)
  · split at hc
    · rw [List.mem_singleton.1 hc]
      rfl
    · cases hc

theorem written_toText {step : PathStep} (h : step.index.toNat < 2 ^ 31) :
    step.Written step.toText := by
  refine ⟨h, Text.ofNat step.index.toNat, if step.hardened then ['\x27'] else [], ?_,
    Text.natNumeral_ofNat _, ?_⟩
  · exact Text.trim_of_forall fun _ => isBlank_of_mem_toText
  · cases step.hardened <;> simp [marks]

end PathStep

/-! ## A path -/

namespace DerivationPath

/-- A path with at least one step, whose numbers leave room for the hardening. -/
structure Valid (path : DerivationPath) : Prop where
  steps_ne : path.steps ≠ []
  index_lt : ∀ step ∈ path.steps, step.index.toNat < 2 ^ 31

/-- A path that is written has steps, with indices that leave the top bit free. -/
theorem Written.valid {path : DerivationPath} {s : Text} (h : path.Written s) : path.Valid := by
  obtain ⟨root, parts, -, hne, -, hsteps⟩ := h
  constructor
  · rintro hnil
    rw [hnil, List.forall₂_nil_left_iff] at hsteps
    exact hne hsteps
  · exact ((List.forall₂_and_left _ _).1 (hsteps.imp fun _ _ hstep => ⟨hstep.1, hstep⟩)).1

/-- A path is known from its full indices. -/
theorem steps_eq_map_ofFullIndex {path : DerivationPath} (h : path.Valid) :
    path.steps = path.fullIndices.map PathStep.ofFullIndex := by
  have hsteps : ∀ step ∈ path.steps, PathStep.ofFullIndex step.fullIndex = step :=
    fun step hstep => PathStep.ofFullIndex_fullIndex (h.index_lt step hstep)
  symm
  calc path.fullIndices.map PathStep.ofFullIndex
      = path.steps.map fun step => PathStep.ofFullIndex step.fullIndex := List.map_map
    _ = path.steps.map id := List.map_congr_left hsteps
    _ = path.steps := List.map_id _

/-- The steps behind the root, as they are read. -/
theorem toText_eq_joinWith {path : DerivationPath} (h : path.steps ≠ []) :
    path.toText = 'm' :: '/' :: Text.joinWith ['/'] (path.steps.map PathStep.toText) := by
  obtain ⟨steps⟩ := path
  simp only [toText, List.cons.injEq, true_and]
  induction steps with
  | nil => exact absurd rfl h
  | cons step steps ih =>
    cases steps with
    | nil => simp [Text.joinWith]
    | cons next steps =>
      rw [List.flatMap_cons, ih (by simp)]
      simp [Text.joinWith, List.intercalate_cons_cons]

theorem written_toText {path : DerivationPath} (h : path.Valid) : path.Written path.toText := by
  refine ⟨'m', path.steps.map PathStep.toText, .inl rfl, by simpa using h.steps_ne, ?_, ?_⟩
  · rw [← toText_eq_joinWith h.steps_ne]
    refine Text.trim_of_forall fun c hc => ?_
    simp only [toText, List.mem_cons, List.mem_flatMap] at hc
    rcases hc with rfl | ⟨step, -, rfl | hc⟩
    · rfl
    · rfl
    · exact PathStep.isBlank_of_mem_toText hc
  · rw [List.forall₂_map_right_iff, List.forall₂_same]
    exact fun step hstep => PathStep.written_toText (h.index_lt step hstep)

theorem parse_toText {path : DerivationPath} (h : path.Valid) : parse path.toText = .ok path :=
  parse_eq_ok_iff.2 (written_toText h)

/-- **A path that was read is told by its text and by its full indices.** It has a step, its numbers
are below 2^31, and its text is read as this path again; so two such paths are the same just when
their texts are, and just when their full indices are. Each public index is the rest of the full one
modulo 2^31, and a step is hardened just when the full index does not stay below 2^31. -/
theorem parsed_path_forms {s : Text} {path : DerivationPath} (h : parse s = .ok path) :
    path.steps ≠ [] ∧ (∀ step ∈ path.steps, step.index.toNat < 2 ^ 31) ∧
    parse path.toText = .ok path ∧
    (∀ t path', parse t = .ok path' →
      (path = path' ↔ path.toText = path'.toText) ∧
      (path = path' ↔ path.fullIndices = path'.fullIndices)) ∧
    path.publicIndices.map UInt32.toNat =
      path.fullIndices.map (fun n => n.toNat % 2 ^ 31) ∧
    path.steps.map PathStep.hardened =
      path.fullIndices.map (fun n => decide (2 ^ 31 ≤ n.toNat)) := by
  have hvalid := (parse_eq_ok_iff.1 h).valid
  have hsteps := steps_eq_map_ofFullIndex hvalid
  refine ⟨hvalid.steps_ne, hvalid.index_lt, parse_toText hvalid, fun t path' h' => ⟨?_, ?_⟩, ?_, ?_⟩
  · refine ⟨congrArg toText, fun htext => ?_⟩
    have hread := parse_toText hvalid
    rw [htext, parse_toText (parse_eq_ok_iff.1 h').valid] at hread
    exact (Except.ok.inj hread).symm
  · refine ⟨congrArg fullIndices, fun hindices => ?_⟩
    rw [DerivationPath.mk.injEq, hsteps, steps_eq_map_ofFullIndex (parse_eq_ok_iff.1 h').valid,
      hindices]
  · rw [publicIndices, hsteps, List.map_map, List.map_map]
    rfl
  · rw [hsteps, List.map_map]
    rfl

/-- A path with three hardened steps. -/
def samplePath : DerivationPath :=
  ⟨[⟨44, true⟩, ⟨60, true⟩, ⟨0, true⟩, ⟨0, false⟩, ⟨1, false⟩]⟩

/-- The same with one hardened step less. -/
def samplePath' : DerivationPath :=
  ⟨[⟨44, true⟩, ⟨60, true⟩, ⟨0, false⟩, ⟨0, false⟩, ⟨1, false⟩]⟩

theorem parsed_path_forms_two_marks :
    parse "M/44h/60H/0'/0/1".toList = .ok samplePath ∧
    parse "m/44'/60'/0/0/1".toList = .ok samplePath' ∧
    parse samplePath.toText = .ok samplePath ∧
    samplePath.toText ≠ samplePath'.toText ∧
    samplePath.fullIndices ≠ samplePath'.fullIndices := by
  have hread : parse "M/44h/60H/0'/0/1".toList = .ok samplePath := by decide +kernel
  have hread' : parse "m/44'/60'/0/0/1".toList = .ok samplePath' := by decide +kernel
  have hne : samplePath ≠ samplePath' := by decide
  obtain ⟨-, -, hagain, hsame, -⟩ := parsed_path_forms hread
  obtain ⟨htext, hindices⟩ := hsame _ samplePath' hread'
  exact ⟨hread, hread', hagain, htext.not.1 hne, hindices.not.1 hne⟩

end DerivationPath

end CoinAddress

import CoinAddress.Proofs.Resolution
import CoinAddress.Selection

/-!
# Resolving on selected chains only

A selection resolves and checks as without it, apart from the chains that it leaves out. These are
refused before the key or the text is looked at.

Of the selected chains, all those of the key's curve are resolved together: for a key that is no
point the first of them fails, and otherwise none does. `resolving_outcome` says what each
operation gives.
-/

namespace CoinAddress

theorem Chain.name_injective : Function.Injective Chain.name := fun c d h => by
  have hc := Chain.ofName?_name c
  rw [h, Chain.ofName?_name] at hc
  exact (Option.some.inj hc).symm

theorem Chain.ofName?_eq_none_iff {name : Text} :
    Chain.ofName? name = none ↔ ∀ c : Chain, c.name ≠ name := by
  simp only [Option.eq_none_iff_forall_ne_some, ne_eq, Chain.ofName?_eq_some_iff,
    eq_comm (a := name)]

namespace Selection

/-- The error under the name of a chain that is not selected. -/
def unselected (name : Text) : ResolveError := ⟨name, .lookup, .unsupportedChain name⟩

/-! ## One chain -/

theorem check_eq (s : Selection) (c : Chain) :
    s.check c = if c ∈ s.chains then .ok () else .error (unselected c.name) := by
  rw [check, contains, unselected]
  simp only [List.contains_iff_mem]

theorem resolve_eq (s : Selection) (c : Chain) (key : PublicKey) : s.resolve c key =
    if c ∈ s.chains then CoinAddress.resolve c key else .error (unselected c.name) := by
  rw [resolve, check_eq]
  split <;> rfl

theorem validate_eq (s : Selection) (c : Chain) (text : Text) : s.validate c text =
    if c ∈ s.chains then CoinAddress.validate c text else .error (unselected c.name) := by
  rw [validate, check_eq]
  split <;> rfl

theorem lookupChain_name (c : Chain) : lookupChain c.name = .ok c := by
  rw [lookupChain, Chain.ofName, Chain.ofName?_name]
  rfl

theorem lookupChain_of_ne {name : Text} (h : ∀ c : Chain, c.name ≠ name) :
    lookupChain name = .error (unselected name) := by
  rw [lookupChain, Chain.ofName, Chain.ofName?_eq_none_iff.2 h]
  rfl

/-- A name that is none of a selected chain fails alike, whether it is one of another chain or of
no chain. -/
theorem resolveByName_eq (s : Selection) (name : Text) (key : PublicKey) :
    s.resolveByName name key = if name ∈ s.chains.map Chain.name then
      CoinAddress.resolveByName name key else .error (unselected name) := by
  rw [resolveByName, CoinAddress.resolveByName]
  by_cases hname : ∃ c : Chain, c.name = name
  · obtain ⟨c, rfl⟩ := hname
    have hmem : c.name ∈ s.chains.map Chain.name ↔ c ∈ s.chains :=
      List.mem_map_of_injective Chain.name_injective
    simp only [lookupChain_name, hmem]
    exact s.resolve_eq c key
  · have hne : ∀ c : Chain, c.name ≠ name := fun c hc => hname ⟨c, hc⟩
    rw [if_neg, lookupChain_of_ne hne]
    · rfl
    · intro hmem
      obtain ⟨c, -, hc⟩ := List.mem_map.1 hmem
      exact hne c hc

/-! ## All chains of the key's curve -/

/-- The addresses are those of the selected chains of the key's curve, in their order. -/
theorem resolveAll_eq_ok_iff {s : Selection} {key : PublicKey} {as : List Address} :
    s.resolveAll key = .ok as ↔ List.Forall₂ (fun c a => CoinAddress.resolve c key = .ok a)
      (s.chains.filter fun c => c.curve = key.curve) as := by
  rw [resolveAll, resolveMany, mapM_eq_ok_iff]

/-- With no chain of the key's curve selected, there is nothing to resolve. -/
theorem resolveAll_eq_nil_iff {s : Selection} {key : PublicKey} :
    s.resolveAll key = .ok [] ↔ ∀ c ∈ s.chains, c.curve ≠ key.curve := by
  rw [resolveAll_eq_ok_iff, List.forall₂_nil_right_iff, List.filter_eq_nil_iff]
  simp only [decide_eq_true_eq, ne_eq]

/-- A key that is no point fails on the first selected chain of its curve, and nothing else
fails. -/
theorem resolveAll_eq_error_iff {s : Selection} {key : PublicKey} {e : ResolveError} :
    s.resolveAll key = .error e ↔ key.curve = .secp256k1 ∧
      Secp256k1.Point.ofBytes? key.bytes = none ∧
        ∃ before c after, s.chains = before ++ c :: after ∧
          (∀ d ∈ before, d.curve ≠ .secp256k1) ∧ c.curve = .secp256k1 ∧
            e = ⟨c.name, .normalize, .invalidPublicKey⟩ := by
  have hcurve : ∀ c ∈ s.chains.filter fun c => c.curve = key.curve, key.curve = c.curve :=
    fun c hc => (of_decide_eq_true (List.mem_filter.1 hc).2).symm
  rw [resolveAll, resolveMany, mapM_eq_error_iff]
  constructor
  · rintro ⟨before, c, after, hsplit, hbefore, he⟩
    rw [hsplit] at hcurve
    obtain ⟨hsecp, hnone, rfl⟩ := (resolve_eq_error_iff (hcurve c (by simp))).1 he
    -- a chain of the curve in front of this one would have failed as well
    have hnil : before = [] := by
      refine List.eq_nil_iff_forall_not_mem.2 fun d hd => ?_
      obtain ⟨a, ha⟩ := hbefore d hd
      rw [(resolve_eq_error_iff (hcurve d (by simp [hd]))).2 ⟨hsecp, hnone, rfl⟩] at ha
      cases ha
    subst hnil
    rw [List.nil_append, hsecp] at hsplit
    obtain ⟨front, back, hchains, hfront, hc, -⟩ := List.filter_eq_cons_iff.1 hsplit
    refine ⟨hsecp, hnone, front, c, back, hchains, fun d hd hsame => ?_, ?_, rfl⟩
    · exact hfront d hd (decide_eq_true hsame)
    · exact of_decide_eq_true hc
  · rintro ⟨hsecp, hnone, front, c, back, hchains, hfront, hc, rfl⟩
    refine ⟨[], c, back.filter fun c => c.curve = key.curve, ?_, by simp, ?_⟩
    · rw [List.nil_append, hsecp]
      refine List.filter_eq_cons_iff.2 ⟨front, back, hchains, fun d hd => ?_, ?_, rfl⟩
      · simpa using hfront d hd
      · exact decide_eq_true hc
    · exact (resolve_eq_error_iff (hsecp.trans hc.symm)).2 ⟨hsecp, hnone, rfl⟩

/-- **What a selection resolves and checks.** On a selected chain it is what is resolved and checked
without the selection; any other chain is refused at the look-up, whatever the key or the text.

All addresses of a key are those on the selected chains of its curve, in order, each the one
resolved on its chain. That fails only for a key of secp256k1 that is no point, with the failure of
the first selected chain of that curve, so never for a key of ed25519. -/
theorem resolving_outcome (s : Selection) (key : PublicKey) :
    (∀ c, s.resolve c key =
      if c ∈ s.chains then CoinAddress.resolve c key else .error (unselected c.name)) ∧
    (∀ name, s.resolveByName name key = if name ∈ s.chains.map Chain.name then
      CoinAddress.resolveByName name key else .error (unselected name)) ∧
    (∀ c text, s.validate c text =
      if c ∈ s.chains then CoinAddress.validate c text else .error (unselected c.name)) ∧
    (∀ as, s.resolveAll key = .ok as ↔
      List.Forall₂ (fun c a => CoinAddress.resolve c key = .ok a)
        (s.chains.filter fun c => c.curve = key.curve) as) ∧
    (s.resolveAll key = .ok [] ↔ ∀ c ∈ s.chains, c.curve ≠ key.curve) ∧
    (key.curve = .ed25519 → ∃ as, s.resolveAll key = .ok as) ∧
    ∀ e, s.resolveAll key = .error e ↔ key.curve = .secp256k1 ∧
      Secp256k1.Point.ofBytes? key.bytes = none ∧
        ∃ before c after, s.chains = before ++ c :: after ∧
          (∀ d ∈ before, d.curve ≠ .secp256k1) ∧ c.curve = .secp256k1 ∧
            e = ⟨c.name, .normalize, .invalidPublicKey⟩ := by
  refine ⟨fun c => s.resolve_eq c key, fun name => s.resolveByName_eq name key, s.validate_eq,
    fun as => resolveAll_eq_ok_iff, resolveAll_eq_nil_iff, fun hed => ?_,
    fun e => resolveAll_eq_error_iff⟩
  cases hall : s.resolveAll key with
  | ok as => exact ⟨as, rfl⟩
  | error e =>
    have hsecp := (resolveAll_eq_error_iff.1 hall).1
    rw [hed] at hsecp
    cases hsecp

end Selection

end CoinAddress

import CoinAddress.Proofs.VaultAddresses

/-!
# The one address of the family `evm`

All chains of the family `evm` have one path, so a vault has one key for all of them, and the family
writes one address for it. A vault's address of this family is looked up under the first of its
chains that has one; which chain that is makes no difference: `one_evm_address`.

The root key plays no part in it. The address depends on the deriver alone, and so it is the same in
every selection that has a chain of the family.
-/

namespace CoinAddress

theorem Chain.isEvm_iff {c : Chain} : c.isEvm = true ↔ c.family = .evm := decide_eq_true_iff

/-- The chains of the family `evm` share their path. -/
theorem Chain.path?_of_isEvm {c : Chain} (h : c.isEvm = true) :
    c.path? = some (.firstAddress 44 60) := by
  revert h
  cases c <;> decide

namespace VaultAddresses

theorem find?_of_evm? {v : VaultAddresses} {text : Text} (h : v.evm? = some text) :
    ∃ c : Chain, c.isEvm = true ∧ v.find? c = some text := by
  obtain ⟨⟨c, t⟩, hfirst, rfl⟩ := Option.map_eq_some_iff.1 h
  exact ⟨c, by simpa using List.find?_some hfirst,
    mem_toList_iff.1 (List.mem_of_find?_eq_some hfirst)⟩

theorem evm?_eq_none_iff {v : VaultAddresses} :
    v.evm? = none ↔ ∀ c : Chain, c.isEvm = true → v.find? c = none := by
  rw [evm?, Option.map_eq_none_iff, List.find?_eq_none]
  constructor
  · intro h c hc
    refine Option.eq_none_iff_forall_ne_some.2 fun text htext => ?_
    exact h (c, text) (mem_toList_iff.2 htext) hc
  · rintro h ⟨c, text⟩ hmem hc
    rw [mem_toList_iff, h c hc] at hmem
    cases hmem

/-- Where all chains of the family have one address, it is the one that is looked up. -/
theorem evm?_eq_of_shared {v : VaultAddresses} {c : Chain} {text : Text} (hc : c.isEvm = true)
    (hfind : v.find? c = some text)
    (hshared : ∀ (d : Chain) (t : Text), d.isEvm = true → v.find? d = some t → t = text) :
    v.evm? = some text := by
  cases hevm : v.evm? with
  | none =>
    rw [evm?_eq_none_iff.1 hevm c hc] at hfind
    cases hfind
  | some t =>
    obtain ⟨d, hd, hfind'⟩ := find?_of_evm? hevm
    rw [hshared d t hd hfind']

end VaultAddresses

namespace Vault

variable {derive : Deriver} {root : PublicKey} {s : Selection} {v : VaultAddresses}

/-- An address that a deriver gives on the chains of the family `evm`. -/
def IsEvmText (derive : Deriver) (text : Text) : Prop :=
  ∃ key, derive (.firstAddress 44 60) = .ok key ∧ Family.evm.encodeKey key.bytes = .ok text

theorem IsEvmText.eq {text text' : Text} (h : IsEvmText derive text)
    (h' : IsEvmText derive text') : text = text' := by
  obtain ⟨key, hkey, htext⟩ := h
  obtain ⟨key', hkey', htext'⟩ := h'
  cases hkey.symm.trans hkey'
  exact Except.ok.inj (htext.symm.trans htext')

/-- On a chain of the family, neither the chain nor the root key has a say in the address. -/
theorem isEvmText_of_addressOn {c : Chain} (hc : c.isEvm = true) {a : Address}
    (h : addressOn derive root c = .ok a) : IsEvmText derive a.text := by
  obtain ⟨key, hkey, hresolve⟩ := addressOn_eq_ok_iff.1 h
  have htext := (resolveBytes_eq_ok_iff.1 hresolve).2.2.2
  rw [Chain.isEvm_iff.1 hc] at htext
  have hpath := Chain.path?_of_isEvm hc
  cases hkey with
  | root hed =>
    rw [Chain.curve_of_path hpath] at hed
    cases hed
  | child _ hread hderive =>
    rw [Chain.readsPath_iff, hpath] at hread
    cases hread
    exact ⟨key, hderive, htext⟩

/-- With a point for the family, the deriver gives each of its chains an address. -/
theorem exists_addressOn_of_isEvm {c : Chain} (hc : c.isEvm = true) {key : PublicKey}
    (hkey : derive (.firstAddress 44 60) = .ok key) (hcurve : key.curve = .secp256k1)
    (hpoint : Secp256k1.Point.ofBytes? key.bytes ≠ none) :
    ∃ a, addressOn derive root c = .ok a := by
  have hpath := Chain.path?_of_isEvm hc
  have hsecp := Chain.curve_of_path hpath
  obtain ⟨text, htext⟩ := exists_resolveBytes_eq_ok (hcurve.trans hsecp.symm) key.length_mem
    fun _ => hpoint
  exact ⟨_, addressOn_eq_ok_iff.2 ⟨key, .child hsecp (Chain.readsPath_iff.2 hpath) hkey, htext⟩⟩

/-- A run leaves addresses of the family under the selected chains of the family only. -/
theorem find?_eq_some_iff_of_isEvm (h : addresses derive root s = .ok v) {c : Chain}
    (hc : c.isEvm = true) {text : Text} :
    v.find? c = some text ↔ c ∈ s.chains ∧ IsEvmText derive text := by
  obtain ⟨hin, hout⟩ := find?_of_addressesFrom h
  have hselected : ∀ {t : Text}, c ∈ s.chains → v.find? c = some t → IsEvmText derive t := by
    intro t hmem ht
    obtain ⟨a, ha, hfind⟩ := hin c hmem
    cases hfind.symm.trans ht
    exact isEvmText_of_addressOn hc ha
  constructor
  · intro hfind
    by_cases hmem : c ∈ s.chains
    · exact ⟨hmem, hselected hmem hfind⟩
    · rw [hout c hmem] at hfind
      cases hfind
  · rintro ⟨hmem, htext⟩
    obtain ⟨a, -, hfind⟩ := hin c hmem
    rw [hfind, (hselected hmem hfind).eq htext]

theorem evm?_eq_some_iff (h : addresses derive root s = .ok v) {text : Text} :
    v.evm? = some text ↔ (∃ c ∈ s.chains, c.isEvm = true) ∧ IsEvmText derive text := by
  constructor
  · intro hevm
    obtain ⟨c, hc, hfind⟩ := VaultAddresses.find?_of_evm? hevm
    obtain ⟨hmem, htext⟩ := (find?_eq_some_iff_of_isEvm h hc).1 hfind
    exact ⟨⟨c, hmem, hc⟩, htext⟩
  · rintro ⟨⟨c, hmem, hc⟩, htext⟩
    refine VaultAddresses.evm?_eq_of_shared hc
      ((find?_eq_some_iff_of_isEvm h hc).2 ⟨hmem, htext⟩) ?_
    intro d t hd hfind
    exact ((find?_eq_some_iff_of_isEvm h hd).1 hfind).2.eq htext

/-- **A vault has one address of the family `evm`.** There is one just when a selected chain is of
the family, and then every selected chain of the family has it. It stays the same under any other
root key and in any other selection that has a chain of the family, whatever the order and the other
chains. -/
theorem one_evm_address (h : addresses derive root s = .ok v) :
    (v.evm?.isSome = true ↔ ∃ c ∈ s.chains, c.isEvm = true) ∧
    (∀ c ∈ s.chains, c.isEvm = true → v.find? c = v.evm?) ∧
    ∀ (root' : PublicKey) (s' : Selection) (v' : VaultAddresses),
      addresses derive root' s' = .ok v' → (∃ c ∈ s.chains, c.isEvm = true) →
        (∃ c ∈ s'.chains, c.isEvm = true) → v'.evm? = v.evm? := by
  -- a selected chain of the family has an address, which is that of the family
  have hexists : (∃ c ∈ s.chains, c.isEvm = true) →
      ∃ text, v.evm? = some text ∧ IsEvmText derive text := by
    rintro ⟨c, hmem, hc⟩
    obtain ⟨a, ha, -⟩ := (find?_of_addressesFrom h).1 c hmem
    have htext := isEvmText_of_addressOn hc ha
    exact ⟨a.text, (evm?_eq_some_iff h).2 ⟨⟨c, hmem, hc⟩, htext⟩, htext⟩
  refine ⟨⟨fun hsome => ?_, fun hc => ?_⟩, fun c hmem hc => ?_, fun root' s' v' h' hc hc' => ?_⟩
  · obtain ⟨text, hevm⟩ := Option.isSome_iff_exists.1 hsome
    exact ((evm?_eq_some_iff h).1 hevm).1
  · obtain ⟨text, hevm, -⟩ := hexists hc
    rw [hevm, Option.isSome_some]
  · obtain ⟨text, hevm, htext⟩ := hexists ⟨c, hmem, hc⟩
    rw [hevm, (find?_eq_some_iff_of_isEvm h hc).2 ⟨hmem, htext⟩]
  · obtain ⟨text, hevm, htext⟩ := hexists hc
    rw [hevm, (evm?_eq_some_iff h').2 ⟨hc', htext⟩]

/-- A deriver that has the child key of the family `evm` and no other. -/
def evmDeriver : Deriver := fun path =>
  if path = .firstAddress 44 60 then .ok sampleChild
  else .error (.invalidConfig (.noKeyForPath path.toText))

/-- Two chains of the family around one that is not, the larger number first. -/
def polygonToArbitrum : Selection := ⟨[.polygon, .solana, .arbitrum], by decide, by decide⟩

/-- A selection that has no chain with that one in common. -/
def onlyBase : Selection := ⟨[.base], by decide, by decide⟩

theorem one_evm_address_polygon_base : ∃ v v',
    addresses evmDeriver sampleRoot polygonToArbitrum = .ok v ∧
    addresses evmDeriver sampleRoot onlyBase = .ok v' ∧
    v.evm?.isSome = true ∧ v.find? .polygon = v.evm? ∧ v.find? .arbitrum = v.evm? ∧
    v'.evm? = v.evm? := by
  have hpoint : Secp256k1.Point.ofBytes? sampleChild.bytes ≠ none := by decide +kernel
  have hevm : ∀ {c : Chain}, c.isEvm = true → ∃ a, addressOn evmDeriver sampleRoot c = .ok a :=
    fun hc => exists_addressOn_of_isEvm hc (show _ = Except.ok sampleChild from rfl) rfl hpoint
  have hsolana : ∃ a, addressOn evmDeriver sampleRoot .solana = .ok a :=
    ⟨⟨.solana, "46ZJUzqDR1dxvX7hFWogsAzyAseAwtb1XNGhtCCNCHW5".toList⟩, by decide +kernel⟩
  have hboth : ∀ c ∈ polygonToArbitrum.chains,
      ∃ a, addressOn evmDeriver sampleRoot c = .ok a := by
    simp only [polygonToArbitrum, List.mem_cons, List.not_mem_nil, or_false]
    rintro c (rfl | rfl | rfl)
    · exact hevm rfl
    · exact hsolana
    · exact hevm rfl
  have hbase : ∀ c ∈ onlyBase.chains, ∃ a, addressOn evmDeriver sampleRoot c = .ok a := by
    simp only [onlyBase, List.mem_singleton]
    rintro c rfl
    exact hevm rfl
  obtain ⟨v, hv⟩ := exists_addressesFrom hboth .empty
  obtain ⟨v', hv'⟩ := exists_addressesFrom hbase .empty
  obtain ⟨hsome, hfind, hsame⟩ := one_evm_address hv
  exact ⟨v, v', hv, hv', hsome.2 ⟨.polygon, by decide, by decide⟩,
    hfind .polygon (by decide) (by decide), hfind .arbitrum (by decide) (by decide),
    hsame sampleRoot onlyBase v' hv' ⟨.polygon, by decide, by decide⟩ ⟨.base, by decide, by decide⟩⟩

end Vault

end CoinAddress

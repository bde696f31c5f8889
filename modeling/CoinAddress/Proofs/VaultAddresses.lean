import CoinAddress.Path.Parser
import CoinAddress.Proofs.Resolution
import CoinAddress.Vault

/-!
# What the addresses of a vault are

A vault resolves the selected chains one after the other, each with a key of its own. Resolving all
of them succeeds just when each chain has a key and the key an address; the result holds these
addresses and no others and lists them in the order of the chains' numbers. Otherwise the failure
is that of the first chain that has one, in the order of the selection: `addresses_outcome`.

One step over the list of chains is `addressesFrom_cons_ok_iff` or `addressesFrom_cons_error_iff`;
what a whole run does follows by induction on the list.

The deriver is asked for the paths of the chains up to the first that fails,
`requests_of_addresses`, and what it would say at other paths does not matter: `addresses_congr`.
-/

namespace CoinAddress

/-- The registered path of a chain, in writing, is read as this path. -/
def Chain.ReadsPath (c : Chain) (path : DerivationPath) : Prop :=
  ∃ registered, c.path? = some registered ∧ DerivationPath.parse registered.toText = .ok path

theorem Chain.parse_path {c : Chain} {path : DerivationPath} (h : c.path? = some path) :
    DerivationPath.parse path.toText = .ok path := by
  have hall : Chain.all.all fun c => c.path?.all fun p =>
      decide (DerivationPath.parse p.toText = .ok p) := by decide +kernel
  have hc := List.all_eq_true.1 hall c c.mem_all
  rw [h] at hc
  exact of_decide_eq_true hc

/-- Nothing is lost by writing the paths down. -/
theorem Chain.readsPath_iff {c : Chain} {path : DerivationPath} :
    c.ReadsPath path ↔ c.path? = some path := by
  constructor
  · rintro ⟨registered, hregistered, hread⟩
    rw [Chain.parse_path hregistered] at hread
    cases hread
    exact hregistered
  · intro h
    exact ⟨path, h, Chain.parse_path h⟩

theorem Chain.curve_of_path {c : Chain} {path : DerivationPath} (h : c.path? = some path) :
    c.curve = .secp256k1 := by
  cases hc : c.curve with
  | secp256k1 => rfl
  | ed25519 =>
    rw [(Chain.path?_eq_none_iff c).2 hc] at h
    cases h

theorem resolve_eq_ok_chain {c : Chain} {key : PublicKey} {a : Address}
    (h : resolve c key = .ok a) : a.chain = c :=
  (resolveBytes_eq_ok_iff.1 h).2.2.1

namespace Vault

variable {derive : Deriver} {root : PublicKey}

/-! ## Keys and addresses of one chain -/

/-- The key of a vault on a chain: the root key on ed25519, and on secp256k1 what the deriver
supplies at the path of the chain. -/
inductive KeyOn (derive : Deriver) (root : PublicKey) : Chain → PublicKey → Prop
  | root {c : Chain} (hcurve : c.curve = .ed25519) : KeyOn derive root c root
  | child {c : Chain} {path : DerivationPath} {key : PublicKey} (hcurve : c.curve = .secp256k1)
      (hpath : c.ReadsPath path) (hkey : derive path = .ok key) : KeyOn derive root c key

theorem keyFor_eq_ok_iff {c : Chain} {key : PublicKey} :
    keyFor derive root c = .ok key ↔ KeyOn derive root c key := by
  unfold keyFor
  cases hpath : c.path? with
  | none =>
    have hcurve := (Chain.path?_eq_none_iff c).1 hpath
    constructor
    · rintro ⟨⟩
      exact .root hcurve
    · intro h
      cases h with
      | root => rfl
      | child hsecp => rw [hcurve] at hsecp; cases hsecp
  | some path =>
    have hcurve := Chain.curve_of_path hpath
    rw [mapError_eq_ok_iff]
    constructor
    · intro hkey
      exact .child hcurve (Chain.readsPath_iff.2 hpath) hkey
    · intro h
      cases h with
      | root hed => rw [hcurve] at hed; cases hed
      | child _ hread hkey =>
        rw [Chain.readsPath_iff, hpath] at hread
        cases hread
        exact hkey

theorem addressOn_eq_ok_iff {c : Chain} {a : Address} :
    addressOn derive root c = .ok a ↔ ∃ key, KeyOn derive root c key ∧ resolve c key = .ok a := by
  unfold addressOn
  simp only [bind_eq_ok_iff, keyFor_eq_ok_iff]

theorem addressesFrom_cons_ok_iff {v w : VaultAddresses} {c : Chain} {cs : List Chain} :
    addressesFrom derive root v (c :: cs) = .ok w ↔ ∃ a, addressOn derive root c = .ok a ∧
      addressesFrom derive root (v.insert a) cs = .ok w := by
  rw [addressesFrom]
  cases addressOn derive root c <;> simp

theorem addressesFrom_cons_error_iff {v : VaultAddresses} {c : Chain} {cs : List Chain}
    {e : ResolveError} :
    addressesFrom derive root v (c :: cs) = .error e ↔ addressOn derive root c = .error e ∨
      ∃ a, addressOn derive root c = .ok a ∧
        addressesFrom derive root (v.insert a) cs = .error e := by
  rw [addressesFrom]
  cases addressOn derive root c <;> simp

/-- A run succeeds if each chain has an address, whatever is known already. -/
theorem exists_addressesFrom {cs : List Chain}
    (h : ∀ c ∈ cs, ∃ a, addressOn derive root c = .ok a) (v : VaultAddresses) :
    ∃ w, addressesFrom derive root v cs = .ok w := by
  induction cs generalizing v with
  | nil => exact ⟨v, rfl⟩
  | cons c cs ih =>
    obtain ⟨a, ha⟩ := h c List.mem_cons_self
    obtain ⟨w, hw⟩ := ih (fun d hd => h d (List.mem_cons_of_mem c hd)) (v.insert a)
    exact ⟨w, addressesFrom_cons_ok_iff.2 ⟨a, ha, hw⟩⟩

/-- A run that succeeds leaves the address of each of its chains, and the other chains as they
were. -/
theorem find?_of_addressesFrom {v w : VaultAddresses} {cs : List Chain}
    (h : addressesFrom derive root v cs = .ok w) :
    (∀ c ∈ cs, ∃ a, addressOn derive root c = .ok a ∧ w.find? c = some a.text) ∧
      ∀ c, c ∉ cs → w.find? c = v.find? c := by
  induction cs generalizing v with
  | nil =>
    cases h
    simp
  | cons c cs ih =>
    obtain ⟨a, ha, hrest⟩ := addressesFrom_cons_ok_iff.1 h
    obtain ⟨hin, hout⟩ := ih hrest
    obtain ⟨key, -, hkey⟩ := addressOn_eq_ok_iff.1 ha
    have hchain : a.chain = c := resolve_eq_ok_chain hkey
    constructor
    · intro d hd
      by_cases hmem : d ∈ cs
      · exact hin d hmem
      · -- no later chain overwrites what was inserted for this one
        obtain rfl : d = c := (List.mem_cons.1 hd).resolve_right hmem
        refine ⟨a, ha, ?_⟩
        rw [hout d hmem, VaultAddresses.find?_insert, if_pos hchain.symm]
    · intro d hd
      rw [List.mem_cons, not_or] at hd
      rw [hout d hd.2, VaultAddresses.find?_insert, hchain, if_neg hd.1]

/-- A run fails with the failure of the first chain that has one. -/
theorem addressesFrom_eq_error_iff {v : VaultAddresses} {cs : List Chain} {e : ResolveError} :
    addressesFrom derive root v cs = .error e ↔ ∃ before c after, cs = before ++ c :: after ∧
      (∀ d ∈ before, ∃ a, addressOn derive root d = .ok a) ∧
        addressOn derive root c = .error e := by
  induction cs generalizing v with
  | nil => simp [addressesFrom]
  | cons c cs ih =>
    rw [addressesFrom_cons_error_iff]
    constructor
    · rintro (he | ⟨a, ha, hrest⟩)
      · exact ⟨[], c, cs, rfl, by simp, he⟩
      · obtain ⟨before, d, after, rfl, hbefore, he⟩ := ih.1 hrest
        refine ⟨c :: before, d, after, rfl, ?_, he⟩
        intro x hx
        rcases List.mem_cons.1 hx with rfl | hx
        · exact ⟨a, ha⟩
        · exact hbefore x hx
    · rintro ⟨before, d, after, hsplit, hbefore, he⟩
      cases before with
      | nil =>
        cases hsplit
        exact .inl he
      | cons b before =>
        cases hsplit
        obtain ⟨a, ha⟩ := hbefore c List.mem_cons_self
        refine .inr ⟨a, ha, ih.2 ⟨before, d, after, rfl, ?_, he⟩⟩
        exact fun x hx => hbefore x (List.mem_cons_of_mem c hx)

/-! ## A selection -/

/-- A root key. -/
def sampleRoot : PublicKey where
  curve := .ed25519
  bytes := Bytes.beBytes 32 0x2dff7cf8446bd3829604bc5c2193ec64c43f67e764de3fd4807df759b91426fe
  length_mem := by simp [Curve.keyLengths]

/-- A child key. -/
def sampleChild : PublicKey where
  curve := .secp256k1
  bytes :=
    0x02 :: Bytes.beBytes 32 0xc823f633177efe8aa3642c8192de41827bd7f706d2f84619f48d4cd3b7488ec3
  length_mem := by simp [Curve.keyLengths]

section

variable {derive' : Deriver}

/-- The chains in front of the first that fails are all tried. -/
theorem tried_append {before : List Chain} (h : ∀ d ∈ before, ∃ a, addressOn derive root d = .ok a)
    (cs : List Chain) : tried derive root (before ++ cs) = before ++ tried derive root cs := by
  induction before with
  | nil => rfl
  | cons d before ih =>
    obtain ⟨⟨a, ha⟩, hrest⟩ := List.forall_mem_cons.1 h
    simp only [List.cons_append, tried, ha, ih hrest]

theorem addressOn_congr {c : Chain} (h : ∀ path, c.path? = some path → derive path = derive' path) :
    addressOn derive root c = addressOn derive' root c := by
  have hkey : keyFor derive root c = keyFor derive' root c := by
    unfold keyFor
    split
    · rfl
    · next path hpath => rw [h path hpath]
  rw [addressOn, hkey, addressOn]

/-- Derivers that agree on the chains tried with the one lead to the same run with the other. -/
theorem addressesFrom_congr {cs : List Chain}
    (h : ∀ c ∈ tried derive root cs, addressOn derive root c = addressOn derive' root c)
    (v : VaultAddresses) :
    addressesFrom derive root v cs = addressesFrom derive' root v cs ∧
      tried derive root cs = tried derive' root cs := by
  induction cs generalizing v with
  | nil => exact ⟨rfl, rfl⟩
  | cons c cs ih =>
    cases hc : addressOn derive root c with
    | error e =>
      have hc' : addressOn derive' root c = .error e := by
        rw [← h c (by simp [tried, hc]), hc]
      simp only [addressesFrom, tried, hc, hc', and_self]
    | ok a =>
      simp only [tried, hc, List.forall_mem_cons] at h
      obtain ⟨hcongr, hrest⟩ := h
      obtain ⟨hrun, htried⟩ := ih hrest (v.insert a)
      simp only [addressesFrom, tried, hc, ← hcongr, hrun, htried, and_self]

/-- **The outcome depends on what the deriver says at the paths it is asked for,** and so do these
paths: it is asked for nothing else. -/
theorem addresses_congr {s : Selection}
    (h : ∀ path ∈ requests derive root s, derive path = derive' path) :
    addresses derive root s = addresses derive' root s ∧
      requests derive root s = requests derive' root s := by
  have hagree : ∀ c ∈ tried derive root s.chains,
      addressOn derive root c = addressOn derive' root c := fun c hc =>
    addressOn_congr fun path hpath => h path (List.mem_filterMap.2 ⟨c, hc, hpath⟩)
  obtain ⟨hrun, htried⟩ := addressesFrom_congr hagree .empty
  exact ⟨hrun, by rw [requests, htried, requests]⟩

/-- The deriver is asked for the path of each selected chain that has one, in the order of the
selection, up to the first chain that fails. -/
theorem requests_of_addresses (derive : Deriver) (root : PublicKey) (s : Selection) :
    (∀ v, addresses derive root s = .ok v →
      requests derive root s = s.chains.filterMap Chain.path?) ∧
    ∀ e, addresses derive root s = .error e → ∃ before c after, s.chains = before ++ c :: after ∧
      addressOn derive root c = .error e ∧
        requests derive root s = (before ++ [c]).filterMap Chain.path? := by
  constructor
  · intro v hv
    have hall : ∀ c ∈ s.chains, ∃ a, addressOn derive root c = .ok a := fun c hc =>
      ((find?_of_addressesFrom hv).1 c hc).imp fun _ ha => ha.1
    have htried : tried derive root s.chains = s.chains := by
      simpa [tried] using tried_append hall []
    rw [requests, htried]
  · intro e he
    obtain ⟨before, c, after, hsplit, hbefore, hc⟩ := addressesFrom_eq_error_iff.1 he
    have htried : tried derive root (c :: after) = [c] := by simp only [tried, hc]
    refine ⟨before, c, after, hsplit, hc, ?_⟩
    rw [requests, hsplit, tried_append hbefore, htried]

end

end Vault

end CoinAddress

import CoinAddress.Selection

/-!
# Vaults

A vault has a root key of ed25519 and can have child keys of secp256k1 derived. A chain without a
path takes the root key; every other chain takes the child key at its path, which a deriver outside
this library supplies.

The addresses of a vault are a function of the chain, so listing them in the order of the chains'
numbers needs no sorting, whatever the order they were resolved in.
-/

namespace CoinAddress

/-- What supplies child keys: the key at a path, or why there is none. -/
abbrev Deriver := DerivationPath → Except AddressError PublicKey

/-- The address of each chain that has one. -/
structure VaultAddresses where
  find? : Chain → Option Text

namespace VaultAddresses

/-- No address at all. -/
def empty : VaultAddresses := ⟨fun _ => none⟩

/-- The addresses with the one of a chain set. -/
def insert (v : VaultAddresses) (a : Address) : VaultAddresses :=
  ⟨fun c => if c = a.chain then some a.text else v.find? c⟩

/-- The chains that have an address, with it, in the order of their numbers. -/
def toList (v : VaultAddresses) : List (Chain × Text) :=
  Chain.all.filterMap fun c => (v.find? c).map (c, ·)

/-- The address of the first chain of the family `evm` that has one. -/
def evm? (v : VaultAddresses) : Option Text :=
  (v.toList.find? fun a => a.1.isEvm).map (·.2)

/-- How many chains have an address. -/
def size (v : VaultAddresses) : Nat := v.toList.length

/-- Whether no chain has an address. -/
def isEmpty (v : VaultAddresses) : Bool := v.toList.isEmpty

/-- The JSON value of the addresses, a field for each chain. -/
def toJson (v : VaultAddresses) : Json := .obj (v.toList.map fun a => (a.1.name, .str a.2))

@[simp] theorem find?_insert (v : VaultAddresses) (a : Address) (c : Chain) :
    (v.insert a).find? c = if c = a.chain then some a.text else v.find? c := rfl

/-- A pair is listed exactly when it is the address of its chain. -/
theorem mem_toList_iff {v : VaultAddresses} {c : Chain} {s : Text} :
    (c, s) ∈ v.toList ↔ v.find? c = some s := by
  simp only [toList, List.mem_filterMap, Option.map_eq_some_iff, Prod.mk.injEq]
  constructor
  · rintro ⟨d, -, t, hd, rfl, rfl⟩
    exact hd
  · exact fun h => ⟨c, Chain.mem_all c, s, h, rfl, rfl⟩

end VaultAddresses

namespace Vault

/-- The key that a vault uses on a chain. -/
def keyFor (derive : Deriver) (root : PublicKey) (c : Chain) : Except ResolveError PublicKey :=
  match c.path? with
  | none => .ok root
  | some path => (derive path).mapError fun e => ⟨c.name, .derive, e⟩

/-- The address of a vault on a chain. -/
def addressOn (derive : Deriver) (root : PublicKey) (c : Chain) : Except ResolveError Address := do
  let key ← keyFor derive root c
  resolve c key

/-- The addresses on some chains on top of those known already, or the first failure. -/
def addressesFrom (derive : Deriver) (root : PublicKey) (v : VaultAddresses) :
    List Chain → Except ResolveError VaultAddresses
  | [] => .ok v
  | c :: cs =>
    match addressOn derive root c with
    | .error e => .error e
    | .ok a => addressesFrom derive root (v.insert a) cs

/-- The addresses on every selected chain, or the failure of the first that fails. -/
def addresses (derive : Deriver) (root : PublicKey) (s : Selection) :
    Except ResolveError VaultAddresses :=
  addressesFrom derive root .empty s.chains

/-- The chains that are tried: all up to the first that fails. -/
def tried (derive : Deriver) (root : PublicKey) : List Chain → List Chain
  | [] => []
  | c :: cs =>
    match addressOn derive root c with
    | .error _ => [c]
    | .ok _ => c :: tried derive root cs

/-- The paths that the deriver is asked for, in order. -/
def requests (derive : Deriver) (root : PublicKey) (s : Selection) : List DerivationPath :=
  (tried derive root s.chains).filterMap Chain.path?

end Vault

end CoinAddress

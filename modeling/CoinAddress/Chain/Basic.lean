import CoinAddress.Family.Basic
import CoinAddress.Path.Basic

/-!
# The chains

One entry per chain: its canonical name, the ticker of its native asset, its registered coin type,
its address family, and the path of the child key its addresses belong to. A chain without a path
takes the root key itself; those are exactly the chains of ed25519.

Chains have fixed numbers, which are their positions in the list of all chains: `Chain.map_id_all`.
-/

namespace CoinAddress

/-- The supported chains. -/
inductive Chain where
  | thorchain | solana | ethereum | avalanche | bsc | bitcoin | bitcoinCash | litecoin
  | dogecoin | cosmos | kujira | dash | mayaChain | arbitrum | base | optimism
  | polygon | blast | cronosChain | sui | polkadot | zksync | dydx | ton
  | ripple | tron | zcash | osmosis | noble | terra | terraClassic | akash
  deriving DecidableEq, Repr

namespace Chain

/-- What is known about a chain. -/
structure Entry where
  name : Text
  ticker : Text
  coinType : UInt32
  family : Family
  path? : Option DerivationPath

/-- The entry of a chain whose child key is at the first address of its coin type. -/
def Entry.child (name ticker : String) (coinType : UInt32) (family : Family) : Entry :=
  ⟨name.toList, ticker.toList, coinType, family, some (.firstAddress 44 coinType)⟩

/-- The entry of a chain whose child key is under the purpose for witness programs. -/
def Entry.witness (name ticker : String) (coinType : UInt32) (hrp : String) : Entry :=
  ⟨name.toList, ticker.toList, coinType, .segWit hrp.toList, some (.firstAddress 84 coinType)⟩

/-- The entry of a chain that takes the root key. -/
def Entry.root (name ticker : String) (coinType : UInt32) (family : Family) : Entry :=
  ⟨name.toList, ticker.toList, coinType, family, none⟩

/-- The entry of each chain. -/
def entry : Chain → Entry
  | .thorchain => .child "THORChain" "RUNE" 931 (.cosmos "thor".toList)
  | .solana => .root "Solana" "SOL" 501 .solana
  | .ethereum => .child "Ethereum" "ETH" 60 .evm
  | .avalanche => .child "Avalanche" "AVAX" 60 .evm
  | .bsc => .child "BSC" "BNB" 60 .evm
  | .bitcoin => .witness "Bitcoin" "BTC" 0 "bc"
  | .bitcoinCash => .child "BitcoinCash" "BCH" 145 (.cashAddr "bitcoincash".toList)
  | .litecoin => .witness "Litecoin" "LTC" 2 "ltc"
  | .dogecoin => .child "Dogecoin" "DOGE" 3 (.base58Check [0x1e])
  | .cosmos => .child "Cosmos" "ATOM" 118 (.cosmos "cosmos".toList)
  | .kujira => .child "Kujira" "KUJI" 118 (.cosmos "kujira".toList)
  | .dash => .child "Dash" "DASH" 5 (.base58Check [0x4c])
  | .mayaChain => .child "MayaChain" "CACAO" 931 (.cosmos "maya".toList)
  | .arbitrum => .child "Arbitrum" "ETH" 60 .evm
  | .base => .child "Base" "ETH" 60 .evm
  | .optimism => .child "Optimism" "ETH" 60 .evm
  | .polygon => .child "Polygon" "POL" 60 .evm
  | .blast => .child "Blast" "ETH" 60 .evm
  | .cronosChain => .child "CronosChain" "CRO" 60 .evm
  | .sui => .root "Sui" "SUI" 784 .sui
  | .polkadot => .root "Polkadot" "DOT" 354 (.ss58 0)
  | .zksync => .child "Zksync" "ETH" 60 .evm
  | .dydx => .child "Dydx" "DYDX" 118 (.cosmos "dydx".toList)
  | .ton => .root "Ton" "TON" 607 .ton
  | .ripple => .child "Ripple" "XRP" 144 .ripple
  | .tron => .child "Tron" "TRX" 195 .tron
  | .zcash => .child "Zcash" "ZEC" 133 (.base58Check [0x1c, 0xb8])
  | .osmosis => .child "Osmosis" "OSMO" 118 (.cosmos "osmo".toList)
  | .noble => .child "Noble" "USDC" 118 (.cosmos "noble".toList)
  | .terra => .child "Terra" "LUNA" 330 (.cosmos "terra".toList)
  | .terraClassic => .child "TerraClassic" "LUNC" 330 (.cosmos "terra".toList)
  | .akash => .child "Akash" "AKT" 118 (.cosmos "akash".toList)

/-- The canonical name. -/
def name (c : Chain) : Text := c.entry.name

/-- The ticker of the native asset. -/
def ticker (c : Chain) : Text := c.entry.ticker

/-- The registered coin type. -/
def coinType (c : Chain) : UInt32 := c.entry.coinType

/-- The address family. -/
def family (c : Chain) : Family := c.entry.family

/-- The path of the child key, on chains that do not take the root key. -/
def path? (c : Chain) : Option DerivationPath := c.entry.path?

/-- The curve of the chain's keys. -/
def curve (c : Chain) : Curve := c.family.curve

/-- Whether the chain's addresses are of the family `evm`. -/
def isEvm (c : Chain) : Bool := c.family = .evm

/-- Every chain, in the order of their numbers. -/
def all : List Chain :=
  [.thorchain, .solana, .ethereum, .avalanche, .bsc, .bitcoin, .bitcoinCash, .litecoin,
   .dogecoin, .cosmos, .kujira, .dash, .mayaChain, .arbitrum, .base, .optimism,
   .polygon, .blast, .cronosChain, .sui, .polkadot, .zksync, .dydx, .ton,
   .ripple, .tron, .zcash, .osmosis, .noble, .terra, .terraClassic, .akash]

/-- The number of a chain, under which others know it: it must never change. -/
def id : Chain → Nat
  | .thorchain => 0 | .solana => 1 | .ethereum => 2 | .avalanche => 3
  | .bsc => 4 | .bitcoin => 5 | .bitcoinCash => 6 | .litecoin => 7
  | .dogecoin => 8 | .cosmos => 9 | .kujira => 10 | .dash => 11
  | .mayaChain => 12 | .arbitrum => 13 | .base => 14 | .optimism => 15
  | .polygon => 16 | .blast => 17 | .cronosChain => 18 | .sui => 19
  | .polkadot => 20 | .zksync => 21 | .dydx => 22 | .ton => 23
  | .ripple => 24 | .tron => 25 | .zcash => 26 | .osmosis => 27
  | .noble => 28 | .terra => 29 | .terraClassic => 30 | .akash => 31

/-- The chain at this position in the list of all chains. -/
def ofId? (n : Nat) : Option Chain := all[n]?

/-- The chain with this canonical name, in exactly this spelling. -/
def ofName? (s : Text) : Option Chain := all.find? fun c => c.name = s

theorem mem_all (c : Chain) : c ∈ all := by cases c <;> decide

theorem all_nodup : all.Nodup := by decide

/-- The numbers of the chains are their positions in the list. -/
theorem map_id_all : all.map id = List.range all.length := by decide

theorem ofId?_id (c : Chain) : ofId? c.id = some c := by cases c <;> decide

/-- Chains are found under their numbers, and under no other. -/
theorem ofId?_eq_some_iff {n : Nat} {c : Chain} : ofId? n = some c ↔ n = c.id := by
  constructor
  · intro h
    obtain ⟨hn, -⟩ := List.getElem?_eq_some_iff.1 h
    have hposition : (all.map id)[n]? = some c.id := by rw [List.getElem?_map, ← ofId?, h]; rfl
    rw [map_id_all, List.getElem?_range hn] at hposition
    exact Option.some.inj hposition
  · rintro rfl
    exact ofId?_id c

/-- The names tell the chains apart. -/
theorem ofName?_name (c : Chain) : ofName? c.name = some c := by
  cases c <;> decide +kernel

theorem name_of_ofName? {s : Text} {c : Chain} (h : ofName? s = some c) : c.name = s := by
  simpa using List.find?_some h

theorem ofName?_eq_some_iff {s : Text} {c : Chain} : ofName? s = some c ↔ s = c.name :=
  ⟨fun h => (name_of_ofName? h).symm, fun h => h ▸ ofName?_name c⟩

/-- The chains without a path are those of ed25519. -/
theorem path?_eq_none_iff (c : Chain) : c.path? = none ↔ c.curve = .ed25519 := by
  cases c <;> decide

end Chain

end CoinAddress

import CoinAddress.Text.Basic

/-!
# Derivation paths

A path is a list of child numbers, each of them hardened or not. It is written with an `m` in
front, slashes between, and an apostrophe behind each hardened number.

Deriving the child key is not done here: a path only names the child.
-/

namespace CoinAddress

/-- One step of a path. -/
structure PathStep where
  index : UInt32
  hardened : Bool
  deriving DecidableEq, Repr

/-- The top bit of a child number, which marks hardening. -/
def PathStep.hardenedBit : UInt32 := 0x80000000

/-- The child number with hardening in its top bit. -/
def PathStep.fullIndex (step : PathStep) : UInt32 :=
  if step.hardened then step.index ||| PathStep.hardenedBit else step.index

/-- The number, with an apostrophe if it is hardened. -/
def PathStep.toText (step : PathStep) : Text :=
  Text.ofNat step.index.toNat ++ if step.hardened then ['\x27'] else []

/-- A list of steps from the root key to a child. -/
structure DerivationPath where
  steps : List PathStep
  deriving DecidableEq, Repr

namespace DerivationPath

/-- The written form. -/
def toText (path : DerivationPath) : Text := 'm' :: path.steps.flatMap fun s => '/' :: s.toText

/-- The number at a position of the path. -/
def indexAt? (path : DerivationPath) (position : Nat) : Option UInt32 :=
  path.steps[position]?.map (·.index)

/-- The first number says which scheme the rest follows. -/
def purpose? (path : DerivationPath) : Option UInt32 := path.indexAt? 0

/-- The second number is the registered coin type. -/
def coinType? (path : DerivationPath) : Option UInt32 := path.indexAt? 1

/-- The third number is the account. -/
def account? (path : DerivationPath) : Option UInt32 := path.indexAt? 2

/-- The fifth number is the address within the account. -/
def addressIndex? (path : DerivationPath) : Option UInt32 := path.indexAt? 4

/-- The numbers without hardening, for a deriver that takes public steps only. -/
def publicIndices (path : DerivationPath) : List UInt32 := path.steps.map (·.index)

/-- The numbers with hardening in their top bits. -/
def fullIndices (path : DerivationPath) : List UInt32 := path.steps.map (·.fullIndex)

/-- The first address of the first account of a coin under a purpose. -/
def firstAddress (purpose coinType : UInt32) : DerivationPath :=
  ⟨[⟨purpose, true⟩, ⟨coinType, true⟩, ⟨0, true⟩, ⟨0, false⟩, ⟨0, false⟩]⟩

end DerivationPath

end CoinAddress

import CoinAddress.Family.Codec

/-!
# Resolving addresses

The address of a public key on a chain, and the check of a text against a chain. Each failure
names the chain and the stage: the curve and the length of the key are checked first, then the key
is brought into the form that the chain's family hashes, then the address is written.
-/

namespace CoinAddress

/-- An address with the chain it belongs to. -/
structure Address where
  chain : Chain
  text : Text
  deriving DecidableEq, Repr

/-- The stage at which writing an address fails: reading the point, or all the rest. -/
def Stage.ofEncodeError : AddressError → Stage
  | .invalidPublicKey => .normalize
  | _ => .encode

/-- The address on a chain of bytes that are said to be a key on a curve. -/
def resolveBytes (chain : Chain) (curve : Curve) (bytes : Bytes) : Except ResolveError Address :=
  if curve ≠ chain.curve then
    .error ⟨chain.name, .validate, .curveMismatch chain chain.curve curve⟩
  else
    match curve.checkLength bytes.length with
    | .error e => .error ⟨chain.name, .validate, e⟩
    | .ok () =>
      match chain.family.encode bytes with
      | .error e => .error ⟨chain.name, .ofEncodeError e, e⟩
      | .ok text => .ok ⟨chain, text⟩

/-- The address of a key on a chain. -/
def resolve (chain : Chain) (key : PublicKey) : Except ResolveError Address :=
  resolveBytes chain key.curve key.bytes

/-- The chain with a canonical name. -/
def Chain.ofName (name : Text) : Except AddressError Chain :=
  match Chain.ofName? name with
  | some chain => .ok chain
  | none => .error (.unsupportedChain name)

/-- The chain with a number. -/
def Chain.ofId (n : Nat) : Except AddressError Chain :=
  match Chain.ofId? n with
  | some chain => .ok chain
  | none => .error (.unsupportedChain ("id ".toList ++ Text.ofNat n))

/-- The chain with a canonical name, with a failure that names it. -/
def lookupChain (name : Text) : Except ResolveError Chain :=
  (Chain.ofName name).mapError fun e => ⟨name, .lookup, e⟩

/-- The address of a key on the chain with a canonical name. -/
def resolveByName (name : Text) (key : PublicKey) : Except ResolveError Address := do
  let chain ← lookupChain name
  resolve chain key

/-- The addresses of a key on several chains, or the first failure. -/
def resolveMany (chains : List Chain) (key : PublicKey) : Except ResolveError (List Address) :=
  chains.mapM fun chain => resolve chain key

/-- Refuses a text that is not an address of the chain. -/
def validate (chain : Chain) (text : Text) : Except ResolveError Unit :=
  (chain.family.validate text).mapError fun e => ⟨chain.name, .decode, e⟩

end CoinAddress

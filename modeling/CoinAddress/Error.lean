import CoinAddress.Base58.Basic
import CoinAddress.Bech32.Basic
import CoinAddress.Bytes.Base64
import CoinAddress.Chain.Basic
import CoinAddress.Text.Integer

/-!
# Errors

What can go wrong when an address is derived or checked. `AddressError` has one constructor for
each code that a caller can tell apart; the two large classes, malformed text and bad
configuration, carry the cause as a value of its own.

`message` gives the wording. Nothing else in the library looks at it.
-/

namespace CoinAddress

/-- Why a derivation path is malformed. -/
inductive PathFault where
  | noRoot
  | noSteps
  | emptyStep
  | badNumber (step : Text) (fault : Text.IntegerFault)
  | numberTooLarge (index : Nat)
  deriving DecidableEq, Repr

/-- The wording of a path fault. -/
def PathFault.message : PathFault → Text
  | .noRoot => "must start with 'm/'".toList
  | .noSteps => "no components".toList
  | .emptyStep => "empty component".toList
  | .badNumber step fault =>
    "component ".toList ++ Text.quote step ++ ": ".toList ++ fault.message
  | .numberTooLarge index =>
    "component ".toList ++ Text.ofNat index ++ " exceeds 2^31 - 1".toList

/-- Why a text or a byte string has not the form it should have. -/
inductive EncodingFault where
  | keyHex (fault : Hex.Fault)
  | base58 (fault : Base58.Fault)
  | payloadLength (actual expected : Nat)
  | bech32Separator
  | bech32Length
  | bech32MixedCase
  | bech32Padding
  | bech32mChecksum
  | noWitnessProgram
  | witnessVersion (version : Nat)
  | witnessProgramLength (actual : Nat)
  | cosmosPayloadLength (hrp : Text) (actual : Nat)
  | cashMixedCase
  | cashHashLength (actual : Nat)
  | cashEmpty
  | cashSize (version : UInt8) (hashLength : Nat)
  | wordTooWide
  | padding
  | ss58AccountLength (actual : Nat)
  | ss58Length (actual expected : Nat)
  | tonLength (actual : Nat)
  | tonWorkchain (text : Text)
  | tonHashLength
  | tonHash (fault : Hex.Fault)
  | base64 (fault : Base64.Fault)
  | evmDigits (actual : Nat)
  | evmHex (fault : Hex.Fault)
  | suiDigits (actual : Nat)
  | solanaLength (actual : Nat)
  | path (text : Text) (fault : PathFault)
  deriving DecidableEq, Repr

/-- A byte as `0x` and two digits. -/
def byteText (b : UInt8) : Text := '0' :: 'x' :: Hex.encodeByte b

/-- The wording of an encoding fault. -/
def EncodingFault.message : EncodingFault → Text
  | .keyHex fault => "public key hex: ".toList ++ fault.message
  | .base58 fault => "base58: ".toList ++ fault.message
  | .payloadLength actual expected =>
    "payload is ".toList ++ Text.ofNat actual ++ " bytes, expected ".toList ++ Text.ofNat expected
  | .bech32Separator => "bech32: missing human-readable separator, \"1\"".toList
  | .bech32Length => "bech32: invalid length".toList
  | .bech32MixedCase => "bech32: mixed-case strings not allowed".toList
  | .bech32Padding => "bech32: invalid padding".toList
  | .bech32mChecksum => "bech32m checksum where bech32 expected".toList
  | .noWitnessProgram => "empty witness program".toList
  | .witnessVersion version => "unsupported witness version ".toList ++ Text.ofNat version
  | .witnessProgramLength actual =>
    "witness v0 program must be 20 or 32 bytes, got ".toList ++ Text.ofNat actual
  | .cosmosPayloadLength hrp actual =>
    hrp ++ " address payload must be 20 or 32 bytes, got ".toList ++ Text.ofNat actual
  | .cashMixedCase => "mixed-case cashaddr".toList
  | .cashHashLength actual => "cashaddr hash must be 20 bytes, got ".toList ++ Text.ofNat actual
  | .cashEmpty => "empty cashaddr payload".toList
  | .cashSize version hashLength =>
    "unsupported cashaddr size (version ".toList ++ byteText version ++ ", ".toList ++
      Text.ofNat hashLength ++ " byte hash)".toList
  | .wordTooWide => "value out of range for bit width".toList
  | .padding => "invalid padding".toList
  | .ss58AccountLength actual =>
    "ss58 account id must be 32 bytes, got ".toList ++ Text.ofNat actual
  | .ss58Length actual expected =>
    "ss58 payload is ".toList ++ Text.ofNat actual ++ " bytes, expected ".toList ++
      Text.ofNat expected
  | .tonLength actual => "TON address must be 48 characters, got ".toList ++ Text.ofNat actual
  | .tonWorkchain text => "invalid workchain ".toList ++ Text.quote text
  | .tonHashLength => "raw TON hash must be 64 hex characters".toList
  | .tonHash fault => "raw TON hash: ".toList ++ fault.message
  | .base64 fault => "base64: ".toList ++ fault.message
  | .evmDigits actual => "EVM address must have 40 hex digits, got ".toList ++ Text.ofNat actual
  | .evmHex fault => "hex: ".toList ++ fault.message
  | .suiDigits actual => "Sui address must have 64 hex digits, got ".toList ++ Text.ofNat actual
  | .solanaLength actual =>
    "Solana address must decode to 32 bytes, got ".toList ++ Text.ofNat actual
  | .path text fault => "derivation path ".toList ++ Text.quote text ++ ": ".toList ++ fault.message

/-- Why a configuration cannot be used. -/
inductive ConfigFault where
  | unknownCurve (name : Text)
  | emptySelection
  | repeatedChain (chain : Chain)
  | selectionJson
  | unreadableFile
  | noKeyForPath (path : Text)
  deriving DecidableEq, Repr

/-- The wording of a configuration fault. Of a text that is no selection, and of a file that cannot
be read, only the start of the message is modelled: behind it stand where the text is wrong, or the
path of the file and the cause. -/
def ConfigFault.message : ConfigFault → Text
  | .unknownCurve name => "unknown curve: ".toList ++ name
  | .emptySelection => "chain selection is empty".toList
  | .repeatedChain chain => "chain ".toList ++ chain.name ++ " is listed more than once".toList
  | .selectionJson => "chain selection JSON".toList
  | .unreadableFile => "cannot read".toList
  | .noKeyForPath path => "no key for ".toList ++ path

/-- What can go wrong with one key, address or configuration. -/
inductive AddressError where
  | curveMismatch (chain : Chain) (expected actual : Curve)
  | invalidKeyLength (curve : Curve) (actual : Nat)
  | invalidPublicKey
  | unsupportedChain (name : Text)
  | checksumMismatch
  | payloadTooShort (minimum actual : Nat)
  | invalidCharacter (c : Char)
  | invalidEncoding (fault : EncodingFault)
  | invalidPrefix (expected found : Text)
  | invalidConfig (fault : ConfigFault)
  deriving DecidableEq, Repr

/-- What callers can tell apart without reading a message. -/
inductive ErrorCode where
  | curveMismatch
  | invalidKeyLength
  | invalidPublicKey
  | unsupportedChain
  | checksumMismatch
  | payloadTooShort
  | invalidCharacter
  | invalidEncoding
  | invalidPrefix
  | invalidConfig
  deriving DecidableEq, Repr

namespace ErrorCode

/-- Every code. -/
def all : List ErrorCode :=
  [.curveMismatch, .invalidKeyLength, .invalidPublicKey, .unsupportedChain, .checksumMismatch,
   .payloadTooShort, .invalidCharacter, .invalidEncoding, .invalidPrefix, .invalidConfig]

/-- The name of a code. -/
def name : ErrorCode → Text
  | .curveMismatch => "curve_mismatch".toList
  | .invalidKeyLength => "invalid_key_length".toList
  | .invalidPublicKey => "invalid_public_key".toList
  | .unsupportedChain => "unsupported_chain".toList
  | .checksumMismatch => "checksum_mismatch".toList
  | .payloadTooShort => "payload_too_short".toList
  | .invalidCharacter => "invalid_character".toList
  | .invalidEncoding => "invalid_encoding".toList
  | .invalidPrefix => "invalid_prefix".toList
  | .invalidConfig => "invalid_config".toList

/-- The code with this name. -/
def ofName? (s : Text) : Option ErrorCode := all.find? fun c => c.name = s

theorem ofName?_name (c : ErrorCode) : ofName? c.name = some c := by
  cases c <;> decide +kernel

end ErrorCode

namespace AddressError

/-- The code of an error. -/
def code : AddressError → ErrorCode
  | .curveMismatch .. => .curveMismatch
  | .invalidKeyLength .. => .invalidKeyLength
  | .invalidPublicKey => .invalidPublicKey
  | .unsupportedChain _ => .unsupportedChain
  | .checksumMismatch => .checksumMismatch
  | .payloadTooShort .. => .payloadTooShort
  | .invalidCharacter _ => .invalidCharacter
  | .invalidEncoding _ => .invalidEncoding
  | .invalidPrefix .. => .invalidPrefix
  | .invalidConfig _ => .invalidConfig

/-- The wording of an error. -/
def message : AddressError → Text
  | .curveMismatch chain expected actual =>
    "public key curve ".toList ++ actual.name ++ " does not match ".toList ++ chain.name ++
      " (expects ".toList ++ expected.name ++ ")".toList
  | .invalidKeyLength curve actual =>
    "invalid ".toList ++ curve.name ++ " public key length: ".toList ++ Text.ofNat actual ++
      " bytes (expected ".toList ++ curve.lengthsText ++ ")".toList
  | .invalidPublicKey => "invalid public key: malformed public key".toList
  | .unsupportedChain name => "unsupported chain: ".toList ++ name
  | .checksumMismatch => "checksum mismatch".toList
  | .payloadTooShort minimum actual =>
    "payload too short: ".toList ++ Text.ofNat actual ++ " bytes (need at least ".toList ++
      Text.ofNat minimum ++ ")".toList
  | .invalidCharacter c =>
    "character ".toList ++ Text.quoteChar c ++ " is not in the source alphabet".toList
  | .invalidEncoding fault => "invalid encoding: ".toList ++ fault.message
  | .invalidPrefix expected found =>
    "invalid prefix: expected ".toList ++ expected ++ ", found ".toList ++ found
  | .invalidConfig fault => "invalid configuration: ".toList ++ fault.message

/-- The error of a Base58 fault. -/
def ofBase58 (fault : Base58.Fault) : AddressError := .invalidEncoding (.base58 fault)

/-- The error of a Bech32 fault. -/
def ofBech32 : Bech32.Fault → AddressError
  | .missingSeparator => .invalidEncoding .bech32Separator
  | .invalidLength => .invalidEncoding .bech32Length
  | .invalidCharacter c => .invalidCharacter c
  | .mixedCase => .invalidEncoding .bech32MixedCase
  | .checksum => .checksumMismatch
  | .padding => .invalidEncoding .bech32Padding

/-- The error of a regrouping fault. -/
def ofRegroup : Regroup.Fault → AddressError
  | .wordTooWide => .invalidEncoding .wordTooWide
  | .padding => .invalidEncoding .padding

end AddressError

/-- The step of resolving an address at which an error arose. -/
inductive Stage where
  | lookup
  | derive
  | validate
  | normalize
  | encode
  | decode
  deriving DecidableEq, Repr

namespace Stage

/-- Every stage. -/
def all : List Stage := [.lookup, .derive, .validate, .normalize, .encode, .decode]

/-- The name of a stage. -/
def name : Stage → Text
  | .lookup => "lookup".toList
  | .derive => "derive".toList
  | .validate => "validate".toList
  | .normalize => "normalize".toList
  | .encode => "encode".toList
  | .decode => "decode".toList

/-- The stage with this name. -/
def ofName? (s : Text) : Option Stage := all.find? fun t => t.name = s

theorem ofName?_name (t : Stage) : ofName? t.name = some t := by
  cases t <;> decide +kernel

end Stage

/-- An error with the chain, by the name the caller gave, and the stage it arose at. -/
structure ResolveError where
  chain : Text
  stage : Stage
  cause : AddressError
  deriving DecidableEq, Repr

namespace ResolveError

/-- The code of the cause. -/
def code (e : ResolveError) : ErrorCode := e.cause.code

/-- The wording: chain, stage and the wording of the cause. -/
def message (e : ResolveError) : Text :=
  "failed to derive address for chain ".toList ++ e.chain ++ " (".toList ++ e.stage.name ++
    "): ".toList ++ e.cause.message

end ResolveError

/-- An error as it is reported to other programs. -/
structure ErrorReport where
  code : ErrorCode
  message : Text
  chain? : Option Text
  stage? : Option Stage
  deriving DecidableEq, Repr

/-- The report of an error that no chain is known of. -/
def AddressError.report (e : AddressError) : ErrorReport := ⟨e.code, e.message, none, none⟩

/-- The report of an error on a chain. -/
def ResolveError.report (e : ResolveError) : ErrorReport :=
  ⟨e.code, e.message, some e.chain, some e.stage⟩

end CoinAddress

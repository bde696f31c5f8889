import CoinAddress.Bytes.Hex
import CoinAddress.Text.Blank
import CoinAddress.Text.Lowercase

/-!
# Redaction of logged values

What a log shows of a value depends on the name of its field, compared in lower case. The classes
are tried in this order:

* names of secrets: nothing but how long the value is, and not even that for a very short one;
* names of public keys and chain codes: the first eight and the last four digits;
* names of addresses: the start and the last four characters;
* all other names: the value as it is.

Lengths are counted in bytes of UTF-8. A value that is too short to be cut, or that is not plain
ASCII, is treated like a secret.
-/

namespace CoinAddress.Redaction

/-- How much of a value may be shown. -/
inductive Visibility where
  | secret
  | keyMaterial
  | address
  | plain
  deriving DecidableEq, Repr

/-- Whether a text occurs in another. -/
def occursIn (needle : Text) : Text → Bool
  | [] => needle.isEmpty
  | c :: s => needle.isPrefixOf (c :: s) || occursIn needle s

/-- Words in the names of secrets. -/
def secretWords : List Text :=
  ["private".toList, "secret".toList, "seed".toList, "mnemonic".toList]

/-- Words in the names of public key material. -/
def keyWords : List Text := ["pubkey".toList, "public_key".toList, "chain_code".toList]

/-- How much the name of a field lets show. -/
def visibilityOf (name : Text) : Visibility :=
  let lower := Text.toLower name
  if secretWords.any fun w => occursIn w lower then .secret
  else if keyWords.any fun w => occursIn w lower then .keyMaterial
  else if occursIn "address".toList lower then .address
  else .plain

/-- What shows of a value that is hidden: its length, if it has more than four bytes. -/
def hidden (value : Text) : Text :=
  if value = [] then "[EMPTY]".toList
  else if value.byteSize ≤ 4 then "[REDACTED]".toList
  else "[REDACTED:".toList ++ Text.ofNat value.byteSize ++ "chars]".toList

/-- The first `front` and the last `back` characters of a value. -/
def ends (front back : Nat) (value : Text) : Text :=
  value.take front ++ "...".toList ++ value.drop (value.length - back)

/-- The ends of a value that is plain ASCII and longer than `most` bytes; else it is hidden. -/
def shortened (front back most : Nat) (value : Text) : Text :=
  if value = [] then "[EMPTY]".toList
  else if value.byteSize ≤ most ∨ value.all Text.isAscii = false then hidden value
  else ends front back value

/-- What shows of a public key or a chain code, whose mark is left out. -/
def shortenedKey (value : Text) : Text := shortened 8 4 16 (Hex.withoutMark (Text.trim value))

/-- How many characters show at the start of an address; a mark does not count. -/
def addressFront : Text → Nat
  | '0' :: 'x' :: _ => 8
  | _ => 6

/-- What shows of an address. -/
def shortenedAddress (value : Text) : Text :=
  let trimmed := Text.trim value
  shortened (addressFront trimmed) 4 (addressFront trimmed + 4 + 3) trimmed

/-- What a log shows of a value in a field of this name. -/
def redact (name value : Text) : Text :=
  match visibilityOf name with
  | .secret => hidden value
  | .keyMaterial => shortenedKey value
  | .address => shortenedAddress value
  | .plain => value

end CoinAddress.Redaction

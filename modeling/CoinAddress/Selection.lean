import CoinAddress.Json.Parser
import CoinAddress.Json.Printer
import CoinAddress.Resolver

/-!
# Selections of chains

A selection is a list of chains, neither empty nor with a repetition, in the order it was given.
It is configured as a JSON object whose only field `chains` lists canonical names.

Of several faults the first of these is reported: a text that is not such an object, the first
name that is none, an empty list, the first chain that stands further in front already.
-/

namespace CoinAddress

/-- Some chains, at least one and none twice, in order. -/
structure Selection where
  chains : List Chain
  nonempty : chains ≠ []
  nodup : chains.Nodup
  deriving DecidableEq

namespace Selection

/-- Every chain, in the order of their numbers. -/
def all : Selection := ⟨Chain.all, by decide, Chain.all_nodup⟩

/-- The first chain that was seen before, in the list or further in front. -/
def firstRepeat? (seen : List Chain) : List Chain → Option Chain
  | [] => none
  | c :: cs => if c ∈ seen then some c else firstRepeat? (c :: seen) cs

theorem firstRepeat?_eq_none_iff {seen cs : List Chain} :
    firstRepeat? seen cs = none ↔ cs.Nodup ∧ ∀ c ∈ cs, c ∉ seen := by
  induction cs generalizing seen with
  | nil => simp [firstRepeat?]
  | cons c cs ih =>
    rw [firstRepeat?]
    split
    · next h => simp [h]
    · next h =>
      rw [ih, List.nodup_cons]
      constructor
      · rintro ⟨hnd, hall⟩
        refine ⟨⟨fun hc => hall c hc (by simp), hnd⟩, ?_⟩
        intro d hd
        rcases List.mem_cons.1 hd with rfl | hd
        · exact h
        · exact fun hs => hall d hd (by simp [hs])
      · rintro ⟨⟨hc, hnd⟩, hall⟩
        refine ⟨hnd, fun d hd hs => ?_⟩
        rcases List.mem_cons.1 hs with rfl | hs
        · exact hc hd
        · exact hall d (by simp [hd]) hs

/-- The selection of these chains. -/
def ofChains (chains : List Chain) : Except AddressError Selection :=
  if h : chains = [] then .error (.invalidConfig .emptySelection)
  else
    match hr : firstRepeat? [] chains with
    | some c => .error (.invalidConfig (.repeatedChain c))
    | none => .ok ⟨chains, h, (firstRepeat?_eq_none_iff.1 hr).1⟩

/-- The selection of the chains with these canonical names. -/
def ofNames (names : List Text) : Except AddressError Selection := do
  let chains ← names.mapM Chain.ofName
  ofChains chains

/-- The names that a JSON value lists. -/
def namesOfJson? (v : Json) : Option (List Text) :=
  match v.recordFields? true ["chains".toList] with
  | some [some (.arr items)] => items.mapM Json.text?
  | _ => none

/-- Reads a selection from JSON text. -/
def ofJsonText (s : Text) : Except AddressError Selection :=
  match (Json.parse? s).bind namesOfJson? with
  | some names => ofNames names
  | none => .error (.invalidConfig .selectionJson)

/-- Reads a selection from the content of a file, if there is one. -/
def ofFile (content : Option Bytes) : Except AddressError Selection :=
  match content.bind fun bs => String.fromUTF8? ⟨bs.toArray⟩ with
  | some s => ofJsonText s.toList
  | none => .error (.invalidConfig .unreadableFile)

/-- Whether a chain is selected. -/
def contains (s : Selection) (c : Chain) : Bool := s.chains.contains c

/-- The JSON value of a selection. -/
def toJson (s : Selection) : Json :=
  .obj [("chains".toList, .arr (s.chains.map fun c => .str c.name))]

/-- The JSON text of a selection. -/
def toJsonText (s : Selection) : Text := s.toJson.compact

/-! ## Resolving on selected chains only -/

/-- Refuses a chain that is not selected. -/
def check (s : Selection) (c : Chain) : Except ResolveError Unit :=
  if s.contains c then .ok () else .error ⟨c.name, .lookup, .unsupportedChain c.name⟩

/-- The address of a key on a selected chain. -/
def resolve (s : Selection) (c : Chain) (key : PublicKey) : Except ResolveError Address := do
  s.check c
  CoinAddress.resolve c key

/-- The address of a key on the selected chain with a canonical name. -/
def resolveByName (s : Selection) (name : Text) (key : PublicKey) :
    Except ResolveError Address := do
  let c ← lookupChain name
  s.resolve c key

/-- Refuses a text that is not an address of a selected chain. -/
def validate (s : Selection) (c : Chain) (text : Text) : Except ResolveError Unit := do
  s.check c
  CoinAddress.validate c text

/-- The addresses of a key on every selected chain of its curve, in order. -/
def resolveAll (s : Selection) (key : PublicKey) : Except ResolveError (List Address) :=
  resolveMany (s.chains.filter fun c => c.curve = key.curve) key

end Selection

end CoinAddress

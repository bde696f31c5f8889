import CoinAddress.Json.Parser
import CoinAddress.Json.Printer
import CoinAddress.Resolver

/-!
# JSON forms

How chains, curves, codes, stages, addresses and error reports are written in JSON and read back.
A chain is written as its canonical name and a record as an object; a report leaves out the fields
it has no value for.
-/

namespace CoinAddress

namespace Chain

/-- A chain as its name. -/
def toJson (c : Chain) : Json := .str c.name

/-- Reads the name of a chain. -/
def ofJson? : Json → Option Chain
  | .str s => ofName? s
  | _ => none

/-- The row of a chain in the listing of all chains. -/
def infoJson (c : Chain) : Json :=
  Json.record
    [("id".toList, some (.num (Text.ofNat c.id))),
     ("name".toList, some (.str c.name)),
     ("ticker".toList, some (.str c.ticker)),
     ("curve".toList, some (.str c.curve.name)),
     ("derivation_path".toList, some (match c.path? with
       | some path => .str path.toText
       | none => .null)),
     ("family".toList, some (.str c.family.kind)),
     ("family_parameter".toList, c.family.parameter?.map .str)]

end Chain

/-- A curve as its name. -/
def Curve.toJson (c : Curve) : Json := .str c.name

/-- Reads the name of a curve. -/
def Curve.ofJson? : Json → Option Curve := Json.named? Curve.ofName?

/-- A code as its name. -/
def ErrorCode.toJson (c : ErrorCode) : Json := .str c.name

/-- Reads the name of a code. -/
def ErrorCode.ofJson? : Json → Option ErrorCode := Json.named? ErrorCode.ofName?

/-- A stage as its name. -/
def Stage.toJson (t : Stage) : Json := .str t.name

/-- Reads the name of a stage. -/
def Stage.ofJson? : Json → Option Stage := Json.named? Stage.ofName?

namespace Address

/-- An address as an object. -/
def toJson (a : Address) : Json :=
  Json.record [("chain".toList, some a.chain.toJson), ("address".toList, some (.str a.text))]

/-- Reads an address. -/
def ofJson? (v : Json) : Option Address := do
  match ← v.recordFields? false ["chain".toList, "address".toList] with
  | [some chain, some text] => some ⟨← Chain.ofJson? chain, ← text.text?⟩
  | _ => none

end Address

namespace ErrorReport

/-- A report as an object. -/
def toJson (r : ErrorReport) : Json :=
  Json.record
    [("code".toList, some r.code.toJson),
     ("message".toList, some (.str r.message)),
     ("chain".toList, r.chain?.map .str),
     ("stage".toList, r.stage?.map Stage.toJson)]

/-- A report as an object with its fields in the order of their names. -/
def toSortedJson (r : ErrorReport) : Json :=
  Json.record
    [("chain".toList, r.chain?.map .str),
     ("code".toList, some r.code.toJson),
     ("message".toList, some (.str r.message)),
     ("stage".toList, r.stage?.map Stage.toJson)]

/-- Reads a report. -/
def ofJson? (v : Json) : Option ErrorReport := do
  match ← v.recordFields? false ["code".toList, "message".toList, "chain".toList,
      "stage".toList] with
  | [some code, some message, chain, stage] =>
    some ⟨← ErrorCode.ofJson? code, ← message.text?, ← Json.optional? Json.text? chain,
      ← Json.optional? Stage.ofJson? stage⟩
  | _ => none

end ErrorReport

end CoinAddress

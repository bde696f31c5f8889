import CoinAddress.Command.Arguments
import CoinAddress.Log.Entry
import CoinAddress.Json.Forms

/-!
# Running a command

What an invocation prints, what it logs and whether it succeeds, as a value. With the JSON flag
every result and every error is JSON on the standard output; without it errors go to the standard
error.

Checking an address prints its verdict on the standard output in any case, and fails if the
address is wrong.
-/

namespace CoinAddress.Command

/-- What a command leaves behind. -/
structure Outcome where
  succeeded : Bool
  output : Text
  log : List LogEntry
  complaint : Text
  deriving DecidableEq, Repr

/-- A text as a line. -/
def line (s : Text) : Text := s ++ ['\n']

/-- A success that prints a value, as JSON or as text. -/
def printed (json : Bool) (value : Json) (text : Text) (log : List LogEntry) : Outcome :=
  ⟨true, line (if json then value.pretty else text), log, []⟩

/-- A failure that reports an error, as JSON or as text. -/
def failed (json : Bool) (report : ErrorReport) (text : Text) (log : List LogEntry) : Outcome :=
  if json then ⟨false, line report.toSortedJson.compact, log, []⟩
  else ⟨false, [], log, line ("error: ".toList ++ text)⟩

/-- A failure on a chain, whose text has the cause once more behind it. -/
def failedOnChain (json : Bool) (e : ResolveError) (log : List LogEntry) : Outcome :=
  failed json e.report (e.message ++ ": ".toList ++ e.cause.message) log

/-- The row of a chain in the plain listing. -/
def chainRow (c : Chain) : Text :=
  let path := match c.path? with
    | some path => path.toText
    | none => ['-']
  let family := match c.family.parameter? with
    | some parameter => c.family.kind ++ " (".toList ++ parameter ++ [')']
    | none => c.family.kind
  Text.padLeft 2 (Text.ofNat c.id) ++ [' ', ' '] ++ Text.padRight 13 c.name ++ [' '] ++
    Text.padRight 6 c.ticker ++ [' '] ++ Text.padRight 10 c.curve.name ++ [' '] ++
    Text.padRight 18 path ++ [' '] ++ family

/-- Lists every chain. -/
def runChains (json : Bool) : Outcome :=
  if json then ⟨true, line (Json.arr (Chain.all.map Chain.infoJson)).pretty, [], []⟩
  else ⟨true, Chain.all.flatMap fun c => line (chainRow c), [], []⟩

/-- Prints the address of a key on a chain. The bytes of the key are read here, and handed on
without a look at how many they are. -/
def runResolve (json : Bool) (name key : Text) : Outcome :=
  match lookupChain name with
  | .error e => failedOnChain json e []
  | .ok c =>
    let digits := Text.trim key
    match Hex.decode (Hex.withoutMark digits) with
    | .error fault => failedOnChain json ⟨c.name, .validate, .invalidEncoding (.keyHex fault)⟩ []
    | .ok bytes =>
      let result := resolveBytes c c.curve bytes
      let log :=
        [LogEntry.start .debug "cli".toList "resolving".toList
          |>.field "chain".toList c.name
          |>.field "pubkey".toList digits,
         .ofResolution result]
      match result with
      | .error e => failedOnChain json e log
      | .ok a => printed json a.toJson a.text log

/-- Prints whether a text is an address on a chain. -/
def runValidate (json : Bool) (name text : Text) : Outcome :=
  match lookupChain name with
  | .error e => failedOnChain json e []
  | .ok c =>
    let result := validate c text
    let error? : Option ResolveError := match result with
      | .ok () => none
      | .error e => some e
    let value := Json.record
      [("chain".toList, some (.str c.name)),
       ("address".toList, some (.str text)),
       ("valid".toList, some (.bool error?.isNone)),
       ("error".toList, error?.map fun e => e.report.toJson)]
    let verdict := match error? with
      | none => "valid".toList
      | some e => "invalid: ".toList ++ e.cause.message
    { printed json value verdict (LogEntry.ofValidation result) with succeeded := error?.isNone }

/-- Prints an address of the family `evm` with its checksum. -/
def runChecksum (json : Bool) (text : Text) : Outcome :=
  match Evm.checksum text with
  | .error e => failed json e.report e.message []
  | .ok s => printed json (.obj [("address".toList, .str s)]) s []

/-- Runs a request. -/
def run (json : Bool) : Request → Outcome
  | .chains => runChains json
  | .resolve name key => runResolve json name key
  | .validate name text => runValidate json name text
  | .checksum text => runChecksum json text

/-- Whether the value of the environment variable turns debug output on. -/
def asksForDebug (value : Text) : Bool :=
  ["1".toList, "true".toList, "yes".toList, "on".toList].contains
    ((Text.trim value).map Char.toLower)

/-- The entries that are shown: those of level `debug` only if debug output is on. -/
def shown (debug : Bool) (log : List LogEntry) : List LogEntry :=
  log.filter fun entry => debug || entry.level != .debug

/-- The outcome of an invocation, its log cut down to what is shown. -/
def execute (debugVariable : Option Text) (invocation : Invocation) : Outcome :=
  let outcome := run invocation.json invocation.request
  let debug := invocation.debug || (debugVariable.map asksForDebug).getD false
  { outcome with log := shown debug outcome.log }

/-- The text for the standard error: the log, and then the complaint. -/
def Outcome.errorText (o : Outcome) : Text :=
  (o.log.flatMap fun entry => line entry.render) ++ o.complaint

end CoinAddress.Command

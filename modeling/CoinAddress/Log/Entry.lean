import CoinAddress.Log.Redaction
import CoinAddress.Resolver

/-!
# Log entries

An entry has a level, the part of the program it comes from, a message and named values. A value
is redacted when its field is added, so what must not be shown never becomes part of an entry.

The entries that resolving and checking leave behind are functions of the outcome.
-/

namespace CoinAddress

/-- How important an entry is. -/
inductive LogLevel where
  | debug
  | info
  | warn
  | error
  deriving DecidableEq, Repr

/-- The name of a level. -/
def LogLevel.name : LogLevel → Text
  | .debug => "DEBUG".toList
  | .info => "INFO".toList
  | .warn => "WARN".toList
  | .error => "ERROR".toList

/-- A log entry whose values are redacted already. -/
structure LogEntry where
  level : LogLevel
  source : Text
  message : Text
  fields : List (Text × Text)
  deriving DecidableEq, Repr

namespace LogEntry

/-- An entry without fields. -/
def start (level : LogLevel) (source message : Text) : LogEntry := ⟨level, source, message, []⟩

/-- The entry with one more field at the end. -/
def field (entry : LogEntry) (name value : Text) : LogEntry :=
  { entry with fields := entry.fields ++ [(name, Redaction.redact name value)] }

/-- The text of an entry. -/
def render (entry : LogEntry) : Text :=
  let head := entry.level.name ++ " [".toList ++ entry.source ++ "] ".toList ++ entry.message
  if entry.fields = [] then head
  else
    head ++ " | ".toList ++
      Text.joinWith [' '] (entry.fields.map fun f => f.1 ++ ['='] ++ f.2)

/-- The entry of a failure. -/
def ofFailure (e : ResolveError) : LogEntry :=
  start .warn "resolver".toList "address derivation failed".toList
    |>.field "chain".toList e.chain
    |>.field "stage".toList e.stage.name
    |>.field "code".toList e.code.name

/-- The entry of an address that was resolved. -/
def ofAddress (a : Address) : LogEntry :=
  start .debug "resolver".toList "address resolved".toList
    |>.field "chain".toList a.chain.name
    |>.field "family".toList a.chain.family.kind
    |>.field "address".toList a.text

/-- The entry that resolving an address leaves behind. -/
def ofResolution : Except ResolveError Address → LogEntry
  | .ok a => ofAddress a
  | .error e => ofFailure e

/-- The entries that checking an address leaves behind: none, if it is right. -/
def ofValidation : Except ResolveError Unit → List LogEntry
  | .ok () => []
  | .error e => [ofFailure e]

end LogEntry

end CoinAddress

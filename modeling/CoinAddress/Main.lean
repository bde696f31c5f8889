import CoinAddress.Command.Run

/-!
# The program

Reads the arguments and the environment, runs the command, and prints what it left behind.
-/

open CoinAddress

/-- The environment variable that turns debug output on. -/
def CoinAddress.Command.debugVariable : String := "CHAIN_ADDRESS_DEBUG"

/-- Runs the command that the arguments ask for. -/
def main (args : List String) : IO UInt32 := do
  match Command.read (args.map String.toList) with
  | .error .usage =>
    IO.eprint (String.ofList Command.Refusal.usage.text)
    return 2
  | .error refusal =>
    IO.print (String.ofList refusal.text)
    return 0
  | .ok invocation =>
    let setting := (← IO.getEnv Command.debugVariable).map String.toList
    let outcome := Command.execute setting invocation
    IO.eprint (String.ofList outcome.errorText)
    IO.print (String.ofList outcome.output)
    return if outcome.succeeded then 0 else 1

import CoinAddress.Error
import CoinAddress.Text.Blank

/-!
# Reading derivation paths

White space around the whole and around each step is skipped. The path starts with a small or
capital `m` and a slash; an apostrophe, a small or a capital `h` behind a number marks hardening.

The steps are read from the left and the first fault is reported, with the whole text as it was
given.
-/

namespace CoinAddress

/-- The steps behind the root of a path, as one text. -/
def DerivationPath.belowRoot? : Text → Option Text
  | 'm' :: '/' :: s | 'M' :: '/' :: s => some s
  | _ => none

/-- The number of a step and whether a mark follows it. -/
def PathStep.splitMark (s : Text) : Text × Bool :=
  match s.getLast? with
  | some c => if c = '\x27' ∨ c = 'h' ∨ c = 'H' then (s.dropLast, true) else (s, false)
  | none => (s, false)

/-- Reads one step. -/
def PathStep.parse (s : Text) : Except PathFault PathStep :=
  let trimmed := Text.trim s
  if trimmed = [] then .error .emptyStep
  else
    let (number, hardened) := PathStep.splitMark trimmed
    match Text.readNat (UInt32.size - 1) number with
    | .error fault => .error (.badNumber s fault)
    | .ok n =>
      if n < 0x80000000 then .ok ⟨UInt32.ofNat n, hardened⟩ else .error (.numberTooLarge n)

namespace DerivationPath

/-- Reads the steps in order. -/
def parseSteps : List Text → Except PathFault (List PathStep)
  | [] => .ok []
  | s :: rest => do
    let step ← PathStep.parse s
    let steps ← parseSteps rest
    .ok (step :: steps)

/-- Reads a path, or says what is wrong with it. -/
def read (s : Text) : Except PathFault DerivationPath :=
  match belowRoot? (Text.trim s) with
  | none => .error .noRoot
  | some [] => .error .noSteps
  | some rest => (parseSteps (rest.splitOn '/')).map DerivationPath.mk

/-- Reads a path. -/
def parse (s : Text) : Except AddressError DerivationPath :=
  (read s).mapError fun fault => .invalidEncoding (.path s fault)

end DerivationPath

end CoinAddress

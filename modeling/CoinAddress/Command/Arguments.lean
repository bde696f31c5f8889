import CoinAddress.Text.Basic

/-!
# Command line arguments

The arguments are flags that hold everywhere, one of four commands, and the options or the text
that the command takes.

They are read from the left, and the first thing that is wrong, or that asks for help, ends the
reading. What is missing is found only at the end.

* A flag may come once before the command and once behind it.
* The value of an option stands behind an equals sign or is the next argument. The next argument
  must not start with a hyphen, unless it is a single one.
* Behind a double hyphen every argument is a plain text.
-/

namespace CoinAddress.Command

/-- What the program is asked to do. -/
inductive Request where
  | chains
  | resolve (chain key : Text)
  | validate (chain address : Text)
  | checksum (address : Text)
  deriving DecidableEq, Repr

/-- A request with the flags that hold for it. -/
structure Invocation where
  request : Request
  json : Bool
  debug : Bool
  deriving DecidableEq, Repr

/-- Why the arguments are no invocation. -/
inductive Refusal where
  | usage
  | help
  | version
  deriving DecidableEq, Repr

/-- What is printed in place of a result. The line of the version is exact. The wording of the help
and of the complaint is not modelled, and these two stand for longer texts. -/
def Refusal.text : Refusal → Text
  | .version => "chain-address 0.1.0\n".toList
  | .help =>
    ("Derive and validate chain-native addresses from public keys\n\n" ++
     "Usage: chain-address [--json] [--debug] <COMMAND>\n\n" ++
     "Commands:\n" ++
     "  chains                               List every supported chain\n" ++
     "  resolve --chain NAME --pubkey HEX    Resolve the address of a public key\n" ++
     "  validate --chain NAME --address TEXT Check an address\n" ++
     "  checksum ADDRESS                     Print the EIP-55 form of an EVM address\n").toList
  | .usage => "error: invalid arguments; try --help\n".toList

/-- The flags seen so far. -/
structure Flags where
  json : Bool
  debug : Bool
  deriving DecidableEq, Repr

/-- No flag seen. -/
def Flags.none : Flags := ⟨false, false⟩

/-- The flags with one more, which must not have been seen; `none` if there is no such flag. -/
def Flags.see (flags : Flags) (name : Text) : Option (Except Refusal Flags) :=
  if name = "--json".toList then
    some (if flags.json then .error .usage else .ok { flags with json := true })
  else if name = "--debug".toList then
    some (if flags.debug then .error .usage else .ok { flags with debug := true })
  else Option.none

/-- The four commands. -/
inductive Verb where
  | chains
  | resolve
  | validate
  | checksum
  deriving DecidableEq, Repr

namespace Verb

/-- Every command. -/
def all : List Verb := [.chains, .resolve, .validate, .checksum]

/-- The name of a command. -/
def name : Verb → Text
  | .chains => "chains".toList
  | .resolve => "resolve".toList
  | .validate => "validate".toList
  | .checksum => "checksum".toList

/-- The command with this name. -/
def ofName? (s : Text) : Option Verb := all.find? fun v => v.name = s

/-- The options of a command, all of which it needs. -/
def options : Verb → List Text
  | .chains | .checksum => []
  | .resolve => ["--chain".toList, "--pubkey".toList]
  | .validate => ["--chain".toList, "--address".toList]

/-- How many plain texts a command takes. -/
def textCount : Verb → Nat
  | .checksum => 1
  | .chains | .resolve | .validate => 0

/-- The request that the values of the options and the plain texts make up. -/
def request? (v : Verb) (values texts : List Text) : Option Request :=
  match v, values, texts with
  | .chains, [], [] => some .chains
  | .resolve, [chain, key], [] => some (.resolve chain key)
  | .validate, [chain, address], [] => some (.validate chain address)
  | .checksum, [], [address] => some (.checksum address)
  | _, _, _ => none

end Verb

/-- What has been read behind a command. -/
structure Progress where
  flags : Flags
  values : List (Text × Text)
  texts : List Text

namespace Progress

/-- Nothing read yet. -/
def start : Progress := ⟨.none, [], []⟩

/-- Takes the value of an option, which must not have one. -/
def setValue (p : Progress) (option value : Text) : Except Refusal Progress :=
  if p.values.any fun v => v.1 = option then .error .usage
  else .ok { p with values := p.values ++ [(option, value)] }

/-- Takes some plain texts, as many as the command has room for. -/
def addTexts (v : Verb) (p : Progress) (texts : List Text) : Except Refusal Progress :=
  if v.textCount < (p.texts ++ texts).length then .error .usage
  else .ok { p with texts := p.texts ++ texts }

end Progress

/-- Whether an argument looks like an option. -/
def looksLikeOption : Text → Bool
  | '-' :: _ :: _ => true
  | _ => false

/-- Reads the arguments behind a command. -/
def readRest (v : Verb) (p : Progress) : List Text → Except Refusal Progress
  | [] => .ok p
  | arg :: rest =>
    if arg = "--".toList then p.addTexts v rest
    else if !looksLikeOption arg then do readRest v (← p.addTexts v [arg]) rest
    else
      match p.flags.see arg with
      | some flags => do readRest v { p with flags := ← flags } rest
      | none =>
        if arg = "--help".toList ∨ arg.take 2 = "-h".toList then .error .help
        else
          match Text.cutAtFirst '=' arg with
          | some (option, value) =>
            if option ∈ v.options then do readRest v (← p.setValue option value) rest
            else .error .usage
          | none =>
            if arg ∈ v.options then
              match rest with
              | [] => .error .usage
              | value :: rest' =>
                if looksLikeOption value || value = "--".toList then .error .usage
                else do readRest v (← p.setValue arg value) rest'
            else .error .usage

/-- The value of each option, if all have one. -/
def Progress.allValues? (v : Verb) (p : Progress) : Option (List Text) :=
  v.options.mapM fun o => (p.values.find? fun x => x.1 = o).map (·.2)

/-- Whether what follows the request for help names a command, or nothing. -/
def helpTopic : List Text → Refusal
  | [] => .help
  | [s] => if (Verb.ofName? s).isSome ∨ s = "help".toList then .help else .usage
  | _ => .usage

/-- Reads the arguments from the flags before the command on. -/
def readFrom (flags : Flags) : List Text → Except Refusal Invocation
  | [] => .error .usage
  | arg :: rest =>
    match Verb.ofName? arg with
    | some v => do
      let p ← readRest v .start rest
      match (p.allValues? v).bind fun values => v.request? values p.texts with
      | some request =>
        .ok ⟨request, flags.json || p.flags.json, flags.debug || p.flags.debug⟩
      | none => .error .usage
    | none =>
      match flags.see arg with
      | some flags => do readFrom (← flags) rest
      | none =>
        if arg = "--help".toList ∨ arg.take 2 = "-h".toList then .error .help
        else if arg = "--version".toList ∨ arg.take 2 = "-V".toList then .error .version
        else if arg = "help".toList then .error (helpTopic rest)
        else .error .usage

/-- The invocation that the arguments spell. -/
def read (args : List Text) : Except Refusal Invocation := readFrom .none args

end CoinAddress.Command

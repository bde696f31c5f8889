import CoinAddress.Command.Run
import CoinAddress.Proofs.JsonRecords
import CoinAddress.Proofs.Resolution
import CoinAddress.Proofs.SelectionNames

/-!
# The command `resolve`

The command looks the chain up, reads the bytes of the key itself and hands them on without a length
check. The library has three calls for it: the chain by its name, the key on the chain's curve, and
the address of that key. `resolveText` makes them one after another, and the command answers with
what comes of it: `exists_runResolve_eq`. What it prints is read back as that address, or as a
report with the code of the call that failed.
-/

namespace CoinAddress.Command

/-! ## Asking for it -/

/-- The arguments for the flags. -/
def flagArguments (json debug : Bool) : List Text :=
  (if json then ["--json".toList] else []) ++ if debug then ["--debug".toList] else []

/-- The arguments that ask for the address of a key on a chain. -/
def resolveArguments (json debug : Bool) (name key : Text) : List Text :=
  "resolve".toList :: ("--chain".toList ++ '=' :: name) :: ("--pubkey".toList ++ '=' :: key) ::
    flagArguments json debug

/-- A value behind an equals sign is taken for its option, whatever the value is. -/
theorem readRest_option {v : Verb} {option : Text} (hoption : option ∈ v.options) (value : Text)
    (p : Progress) (rest : List Text) : readRest v p ((option ++ '=' :: value) :: rest) =
      p.setValue option value >>= fun q => readRest v q rest := by
  have hopens : ∀ v : Verb, ∀ o ∈ v.options, '=' ∉ o ∧ o.take 2 = ['-', '-'] := by
    intro v
    cases v <;> decide
  obtain ⟨hmark, hopen⟩ := hopens v option hoption
  generalize harg : option ++ '=' :: value = arg
  -- an equals sign keeps the argument apart from all that have none
  have hne : ∀ s : Text, '=' ∉ s → arg ≠ s := by
    rintro s hs rfl
    exact hs (harg ▸ List.mem_append_right _ List.mem_cons_self)
  have hcut : Text.cutAtFirst '=' arg = some (option, value) :=
    Text.cutAtFirst_eq_some_iff.2 ⟨harg.symm, hmark⟩
  have hshape : ∃ t, arg = '-' :: '-' :: t := by
    rw [← harg, ← List.take_append_drop 2 option, hopen]
    exact ⟨_, rfl⟩
  obtain ⟨t, rfl⟩ := hshape
  have hlooks : looksLikeOption ('-' :: '-' :: t) = true := rfl
  have hsee : p.flags.see ('-' :: '-' :: t) = none := by
    rw [Flags.see, if_neg (hne _ (by decide)), if_neg (hne _ (by decide))]
  have hhelp : ¬ ('-' :: '-' :: t = "--help".toList ∨ ('-' :: '-' :: t).take 2 = "-h".toList) := by
    rintro (h | h)
    · exact hne _ (by decide) h
    · cases h
  rw [readRest.eq_def v p]
  simp only [if_neg (hne "--".toList (by decide)), hlooks, Bool.not_true, if_neg Bool.false_ne_true,
    hsee, if_neg hhelp, hcut, if_pos hoption]

theorem readRest_flagArguments (v : Verb) (values : List (Text × Text)) (json debug : Bool) :
    readRest v ⟨.none, values, []⟩ (flagArguments json debug) =
      .ok ⟨⟨json, debug⟩, values, []⟩ := by
  cases json <;> cases debug <;> rfl

/-- The arguments of the command are read as its request. -/
theorem read_resolveArguments (json debug : Bool) (name key : Text) :
    read (resolveArguments json debug name key) = .ok ⟨.resolve name key, json, debug⟩ := by
  have hrest : readRest .resolve .start (("--chain".toList ++ '=' :: name) ::
      ("--pubkey".toList ++ '=' :: key) :: flagArguments json debug) =
      .ok ⟨⟨json, debug⟩, [("--chain".toList, name), ("--pubkey".toList, key)], []⟩ := by
    rw [readRest_option (by decide)]
    show readRest .resolve ⟨.none, [("--chain".toList, name)], []⟩ _ = _
    rw [readRest_option (by decide)]
    exact readRest_flagArguments _ _ json debug
  have hverb : Verb.ofName? "resolve".toList = some .resolve := by decide +kernel
  rw [read, resolveArguments, readFrom, hverb]
  simp only [hrest]
  rfl

/-! ## The three calls -/

/-- The chain by its name, the key on the curve of the chain, and the address of the key, or the
failure of the first of the three. -/
def resolveText (name key : Text) : Except ResolveError Address := do
  let chain ← lookupChain name
  let key ← (PublicKey.ofHex chain.curve key).mapError fun e => ⟨chain.name, .validate, e⟩
  resolve chain key

/-- What the command answers to the outcome of the calls. -/
def answer (json : Bool) (result : Except ResolveError Address) (log : List LogEntry) : Outcome :=
  match result with
  | .error e => failedOnChain json e log
  | .ok a => printed json a.toJson a.text log

/-- Bytes handed on without a length check fail as they do when a key is made of them first. -/
theorem ofBytes_bind_resolve (c : Chain) (bytes : Bytes) :
    ((PublicKey.ofBytes c.curve bytes).mapError fun e => ⟨c.name, .validate, e⟩) >>= resolve c =
      resolveBytes c c.curve bytes := by
  by_cases hlen : bytes.length ∈ c.curve.keyLengths
  · rw [PublicKey.ofBytes, dif_pos hlen]
    rfl
  · rw [PublicKey.ofBytes, dif_neg hlen, resolveBytes_of_length rfl hlen]
    rfl

/-- **The command is the three calls:** it answers with what comes of them. -/
theorem exists_runResolve_eq (name key : Text) :
    ∃ log, ∀ json, runResolve json name key = answer json (resolveText name key) log := by
  cases hchain : lookupChain name with
  | error e =>
    refine ⟨[], fun json => ?_⟩
    rw [runResolve, resolveText, hchain]
    rfl
  | ok c =>
    cases hkey : Hex.decode (Hex.withoutMark (Text.trim key)) with
    | error fault =>
      refine ⟨[], fun json => ?_⟩
      simp only [runResolve, resolveText, hchain, PublicKey.ofHex, PublicKey.readHex, hkey]
      rfl
    | ok bytes =>
      have hcalls : resolveText name key = resolveBytes c c.curve bytes := by
        rw [resolveText, hchain, ← ofBytes_bind_resolve]
        simp only [PublicKey.ofHex, PublicKey.readHex, hkey]
        rfl
      rw [hcalls]
      cases hresult : resolveBytes c c.curve bytes with
      | error e => exact ⟨_, fun json => by simp only [runResolve, hchain, hkey, hresult]; rfl⟩
      | ok a => exact ⟨_, fun json => by simp only [runResolve, hchain, hkey, hresult]; rfl⟩

/-- The three calls succeed, and this is the address. -/
def Resolves (name key : Text) (a : Address) : Prop :=
  ∃ c k, Chain.ofName name = .ok c ∧ PublicKey.ofHex c.curve key = .ok k ∧ resolve c k = .ok a

/-- The code of the first of the three calls that fails. -/
inductive FirstFailure (name key : Text) : ErrorCode → Prop
  | chain {e : AddressError} (h : Chain.ofName name = .error e) : FirstFailure name key e.code
  | key {c : Chain} {e : AddressError} (hchain : Chain.ofName name = .ok c)
      (h : PublicKey.ofHex c.curve key = .error e) : FirstFailure name key e.code
  | address {c : Chain} {k : PublicKey} {e : ResolveError} (hchain : Chain.ofName name = .ok c)
      (hkey : PublicKey.ofHex c.curve key = .ok k) (h : resolve c k = .error e) :
      FirstFailure name key e.code

/-- The calls of the library succeed one after the other. -/
theorem resolveText_eq_ok_iff {name key : Text} {a : Address} :
    resolveText name key = .ok a ↔ Resolves name key a := by
  simp only [resolveText, lookupChain, bind_eq_ok_iff, mapError_eq_ok_iff]
  constructor
  · rintro ⟨c, hc, k, hk, ha⟩
    exact ⟨c, k, hc, hk, ha⟩
  · rintro ⟨c, k, hc, hk, ha⟩
    exact ⟨c, hc, k, hk, ha⟩

/-- Of the calls of the library the first that fails gives the code. -/
theorem exists_resolveText_eq_error_iff {name key : Text} {code : ErrorCode} :
    (∃ e, resolveText name key = .error e ∧ e.code = code) ↔ FirstFailure name key code := by
  simp only [resolveText, lookupChain, bind_eq_error_iff, mapError_eq_error_iff,
    mapError_eq_ok_iff]
  constructor
  · rintro ⟨e, ⟨d, hchain, rfl⟩ | ⟨c, hchain, ⟨d, hkey, rfl⟩ | ⟨k, hkey, h⟩⟩, rfl⟩
    · exact .chain hchain
    · exact .key hchain hkey
    · exact .address hchain hkey h
  · intro h
    cases h with
    | chain h => exact ⟨_, .inl ⟨_, h, rfl⟩, rfl⟩
    | key hchain h => exact ⟨_, .inr ⟨_, hchain, .inl ⟨_, h, rfl⟩⟩, rfl⟩
    | address hchain hkey h => exact ⟨_, .inr ⟨_, hchain, .inr ⟨_, hkey, h⟩⟩, rfl⟩

/-! ## What is printed -/

namespace Outcome

/-- A success that prints a text as a line. -/
def PrintsText (o : Outcome) (s : Text) : Prop := o.succeeded = true ∧ o.output = line s

/-- A success that prints an address as JSON. -/
def PrintsAddress (o : Outcome) (a : Address) : Prop :=
  o.succeeded = true ∧ Address.ofJsonText? o.output = some a

/-- A failure that reports a code as JSON. -/
def ReportsCode (o : Outcome) (code : ErrorCode) : Prop :=
  o.succeeded = false ∧ ∃ r, ErrorReport.ofJsonText? o.output = some r ∧ r.code = code

end Outcome

theorem written_line {v : Json} {s : Text} (h : v.Written s) : v.Written (line s) :=
  h.append_blank (List.forall_mem_singleton.2 rfl)

theorem line_injective {s t : Text} (h : line s = line t) : s = t := List.append_cancel_right h

section

variable {result : Except ResolveError Address} {log : List LogEntry}

theorem printsText_answer_iff {text : Text} :
    (answer false result log).PrintsText text ↔ ∃ c, result = .ok ⟨c, text⟩ := by
  cases result with
  | error e =>
    constructor
    · rintro ⟨h, -⟩
      cases h
    · rintro ⟨c, h⟩
      cases h
  | ok a =>
    constructor
    · rintro ⟨-, h⟩
      cases line_injective h
      exact ⟨a.chain, rfl⟩
    · rintro ⟨c, h⟩
      cases h
      exact ⟨rfl, rfl⟩

theorem printsAddress_answer_iff {a : Address} :
    (answer true result log).PrintsAddress a ↔ result = .ok a := by
  cases result with
  | error e =>
    constructor
    · rintro ⟨h, -⟩
      cases h
    · intro h
      cases h
  | ok b =>
    have hread : Address.ofJsonText? (line b.toJson.pretty) = some b :=
      Address.ofJsonText?_of_written (written_line (Json.written_pretty b.hasText_toJson))
    constructor
    · rintro ⟨-, h⟩
      cases hread.symm.trans h
      rfl
    · intro h
      cases h
      exact ⟨rfl, hread⟩

/-- A report can be read from the output just if there was an error, and it has its code. -/
theorem reportsCode_answer_iff {code : ErrorCode} :
    (answer true result log).ReportsCode code ↔ ∃ e, result = .error e ∧ e.code = code := by
  cases result with
  | error e =>
    have hread : ErrorReport.ofJsonText? (line e.report.toSortedJson.compact) = some e.report :=
      ErrorReport.ofJsonText?_of_written e.report.ofJson?_toSortedJson
        (written_line (Json.written_compact e.report.hasText_toSortedJson))
    constructor
    · rintro ⟨-, r, h, rfl⟩
      cases hread.symm.trans h
      exact ⟨e, rfl, rfl⟩
    · rintro ⟨_, h, rfl⟩
      cases h
      exact ⟨rfl, e.report, hread, rfl⟩
  | ok a =>
    constructor
    · rintro ⟨h, -⟩
      cases h
    · rintro ⟨e, h, -⟩
      cases h

theorem succeeded_answer_eq_false_iff {json : Bool} :
    (answer json result log).succeeded = false ↔ ∀ a, result ≠ .ok a := by
  rw [← exists_error_iff]
  cases result with
  | error e => cases json <;> exact ⟨fun _ => ⟨e, rfl⟩, fun _ => rfl⟩
  | ok a =>
    constructor
    · intro h
      cases h
    · rintro ⟨e, h⟩
      cases h

end

/-- **The command `resolve` and the library give the same answer,** for every text as the name of
the chain and every text as the key, with and without debug output.

The arguments can spell any two texts. Without the JSON flag the command succeeds with a text just
if the three calls give an address with that text; with it, just if they give the address that is
read back from the JSON. In every other case it fails, and then the JSON has the code of the first
call that fails. -/
theorem resolve_as_library (debugVariable : Option Text) (debug : Bool) (name key : Text) :
    (∀ json, read (resolveArguments json debug name key) =
      .ok ⟨.resolve name key, json, debug⟩) ∧
    (∀ text, (execute debugVariable ⟨.resolve name key, false, debug⟩).PrintsText text ↔
      ∃ c, Resolves name key ⟨c, text⟩) ∧
    (∀ a, (execute debugVariable ⟨.resolve name key, true, debug⟩).PrintsAddress a ↔
      Resolves name key a) ∧
    (∀ json, (execute debugVariable ⟨.resolve name key, json, debug⟩).succeeded = false ↔
      ∀ a, ¬ Resolves name key a) ∧
    ∀ code, (execute debugVariable ⟨.resolve name key, true, debug⟩).ReportsCode code ↔
      FirstFailure name key code := by
  obtain ⟨log, hrun⟩ := exists_runResolve_eq name key
  refine ⟨fun json => read_resolveArguments json debug name key, fun text => ?_, fun a => ?_,
    fun json => ?_, fun code => ?_⟩
  · show (runResolve false name key).PrintsText text ↔ _
    rw [hrun, printsText_answer_iff]
    simp only [resolveText_eq_ok_iff]
  · show (runResolve true name key).PrintsAddress a ↔ _
    rw [hrun, printsAddress_answer_iff, resolveText_eq_ok_iff]
  · show (runResolve json name key).succeeded = false ↔ _
    rw [hrun, succeeded_answer_eq_false_iff]
    simp only [ne_eq, resolveText_eq_ok_iff]
  · show (runResolve true name key).ReportsCode code ↔ _
    rw [hrun, reportsCode_answer_iff, exists_resolveText_eq_error_iff]

end CoinAddress.Command

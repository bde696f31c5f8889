import CoinAddress.Proofs.JsonText
import CoinAddress.Proofs.SelectedChains

/-!
# Which names make a selection

A list of names is a selection just if it is the names of the selected chains, in their order. Any
other list has a fault, and `Selection.Fault` says which one is reported: a name of no chain even
behind a chain that comes twice, and of several the first.

The names may come as JSON in any of its texts, since each of them is read as the same value, and
the text that a selection prints is one of them. `reading_names` says all of it.
-/

namespace CoinAddress

/-- A chain is found under its canonical name only. -/
theorem Chain.ofName_eq_ok_iff {name : Text} {c : Chain} :
    Chain.ofName name = .ok c ↔ name = c.name := by
  rw [Chain.ofName, ← Chain.ofName?_eq_some_iff]
  cases Chain.ofName? name <;> simp

theorem Chain.ofName_eq_error_iff {name : Text} {e : AddressError} :
    Chain.ofName name = .error e ↔ (∀ c : Chain, c.name ≠ name) ∧ e = .unsupportedChain name := by
  rw [Chain.ofName, ← Chain.ofName?_eq_none_iff]
  cases Chain.ofName? name <;> simp [eq_comm]

namespace Selection

/-! ## The chains of a list -/

/-- The first repetition is of a chain in front of which none is repeated. -/
theorem firstRepeat?_eq_some_iff {seen cs : List Chain} {c : Chain} :
    firstRepeat? seen cs = some c ↔ ∃ before after, cs = before ++ c :: after ∧
      firstRepeat? seen before = none ∧ (c ∈ seen ∨ c ∈ before) := by
  induction cs generalizing seen with
  | nil => simp [firstRepeat?]
  | cons d cs ih =>
    rw [firstRepeat?]
    by_cases hd : d ∈ seen
    · rw [if_pos hd, Option.some.injEq]
      constructor
      · rintro rfl
        exact ⟨[], cs, rfl, rfl, .inl hd⟩
      · rintro ⟨before, after, hsplit, hbefore, -⟩
        cases before with
        | nil => exact (List.cons.inj hsplit).1
        | cons b before =>
          cases hsplit
          rw [firstRepeat?, if_pos hd] at hbefore
          cases hbefore
    · rw [if_neg hd, ih]
      constructor
      · rintro ⟨before, after, rfl, hbefore, hc⟩
        refine ⟨d :: before, after, rfl, ?_, ?_⟩
        · rw [firstRepeat?, if_neg hd, hbefore]
        · rw [List.mem_cons] at hc ⊢
          tauto
      · rintro ⟨before, after, hsplit, hbefore, hc⟩
        cases before with
        | nil =>
          cases hsplit
          exact absurd hc (by simpa using hd)
        | cons b before =>
          cases hsplit
          rw [firstRepeat?, if_neg hd] at hbefore
          refine ⟨before, after, rfl, hbefore, ?_⟩
          rw [List.mem_cons] at hc ⊢
          tauto

theorem ofChains_eq_ok_iff {chains : List Chain} {s : Selection} :
    ofChains chains = .ok s ↔ chains = s.chains := by
  rw [ofChains]
  constructor
  · intro h
    split at h
    · cases h
    · split at h <;> cases h
      rfl
  · rintro rfl
    have hnone : firstRepeat? [] s.chains = none := firstRepeat?_eq_none_iff.2 ⟨s.nodup, by simp⟩
    rw [dif_neg s.nonempty]
    split
    · next hsome => rw [hnone] at hsome; cases hsome
    · rfl

/-- Chains are refused if there are none, or at the first that stands further in front already. -/
theorem ofChains_eq_error_iff {chains : List Chain} {e : AddressError} :
    ofChains chains = .error e ↔ chains = [] ∧ e = .invalidConfig .emptySelection ∨
      ∃ before c after, chains = before ++ c :: after ∧ before.Nodup ∧ c ∈ before ∧
        e = .invalidConfig (.repeatedChain c) := by
  have hrepeat : ∀ c, firstRepeat? [] chains = some c ↔
      ∃ before after, chains = before ++ c :: after ∧ before.Nodup ∧ c ∈ before := by
    simp [firstRepeat?_eq_some_iff, firstRepeat?_eq_none_iff]
  constructor
  · intro h
    rw [ofChains] at h
    split at h
    · next hnil => exact .inl ⟨hnil, (Except.error.inj h).symm⟩
    · split at h
      · next c hc =>
        obtain ⟨before, after, hsplit, hnodup, hmem⟩ := (hrepeat c).1 hc
        exact .inr ⟨before, c, after, hsplit, hnodup, hmem, (Except.error.inj h).symm⟩
      · cases h
  · rintro (⟨rfl, rfl⟩ | ⟨before, c, after, hsplit, hnodup, hmem, rfl⟩)
    · rfl
    · have hc := (hrepeat c).2 ⟨before, after, hsplit, hnodup, hmem⟩
      rw [ofChains, dif_neg (by simp [hsplit])]
      split
      · next hsome =>
        rw [hc] at hsome
        cases hsome
        rfl
      · next hnone =>
        rw [hc] at hnone
        cases hnone

/-! ## The chains of a list of names -/

/-- What is at fault in a list of names, and how it is reported. -/
inductive Fault : List Text → AddressError → Prop
  /-- A name of no chain, with none in front of it. -/
  | unknown {before : List Text} {name : Text} (after : List Text)
      (hbefore : ∀ m ∈ before, ∃ c : Chain, c.name = m) (hname : ∀ c : Chain, c.name ≠ name) :
      Fault (before ++ name :: after) (.unsupportedChain name)
  /-- No names. -/
  | empty : Fault [] (.invalidConfig .emptySelection)
  /-- Names of chains, one of which stands further in front already; none does so before it. -/
  | repeated {before : List Chain} {c : Chain} (after : List Chain) (hbefore : before.Nodup)
      (hc : c ∈ before) :
      Fault ((before ++ c :: after).map Chain.name) (.invalidConfig (.repeatedChain c))

theorem mapM_ofName_eq_ok_iff {names : List Text} {chains : List Chain} :
    names.mapM Chain.ofName = .ok chains ↔ names = chains.map Chain.name := by
  rw [mapM_eq_ok_iff]
  simp only [Chain.ofName_eq_ok_iff]
  rw [← List.forall₂_map_right_iff (R := Eq), List.forall₂_eq_eq_eq]

/-- The names of a selection are those of its chains, in the same order. -/
theorem ofNames_eq_ok_iff {names : List Text} {s : Selection} :
    ofNames names = .ok s ↔ names = s.chains.map Chain.name := by
  rw [ofNames, bind_eq_ok_iff]
  simp only [mapM_ofName_eq_ok_iff, ofChains_eq_ok_iff, exists_eq_right]

theorem ofNames_eq_error_iff {names : List Text} {e : AddressError} :
    ofNames names = .error e ↔ Fault names e := by
  rw [ofNames, bind_eq_error_iff, mapM_eq_error_iff]
  simp only [mapM_ofName_eq_ok_iff, Chain.ofName_eq_ok_iff, Chain.ofName_eq_error_iff,
    ofChains_eq_error_iff]
  constructor
  · rintro (⟨before, name, after, rfl, hbefore, hname, rfl⟩ |
      ⟨chains, rfl, ⟨rfl, rfl⟩ | ⟨before, c, after, rfl, hnodup, hc, rfl⟩⟩)
    · exact .unknown after (fun m hm => (hbefore m hm).imp fun _ h => h.symm) hname
    · exact .empty
    · exact .repeated after hnodup hc
  · intro h
    cases h with
    | unknown after hbefore hname =>
      exact .inl ⟨_, _, after, rfl, fun m hm => (hbefore m hm).imp fun _ h => h.symm, hname, rfl⟩
    | empty => exact .inr ⟨[], rfl, .inl ⟨rfl, rfl⟩⟩
    | repeated after hnodup hc => exact .inr ⟨_, rfl, .inr ⟨_, _, after, rfl, hnodup, hc, rfl⟩⟩

/-! ## Names as JSON -/

/-- The JSON object that lists some names. -/
def namesJson (names : List Text) : Json := .obj [("chains".toList, .arr (names.map .str))]

theorem namesOfJson?_namesJson (names : List Text) :
    namesOfJson? (namesJson names) = some names := by
  have htexts : (names.map Json.str).mapM Json.text? = some names := by
    induction names with
    | nil => rfl
    | cons name names ih => rw [List.map_cons, List.mapM_cons, ih]; rfl
  exact htexts

/-- However the names are written down, they are read as these names. -/
theorem ofJsonText_of_written {names : List Text} {text : Text}
    (h : (namesJson names).Written text) : ofJsonText text = ofNames names := by
  rw [ofJsonText, Json.parse?_of_written h, Option.bind_some, namesOfJson?_namesJson]

theorem toJson_eq (s : Selection) : s.toJson = namesJson (s.chains.map Chain.name) := by
  rw [toJson, namesJson, List.map_map]
  rfl

/-- The printed names are one of the texts of their object. -/
theorem written_namesJson (names : List Text) :
    (namesJson names).Written (namesJson names).compact := by
  have hitems : ∀ v ∈ names.map Json.str, v.HasText := by
    intro v hv
    obtain ⟨name, -, rfl⟩ := List.mem_map.1 hv
    exact Json.hasText_str name
  refine Json.written_compact (Json.hasText_obj ?_)
  rw [List.forall_mem_singleton]
  exact Json.hasText_arr hitems

/-- **Which names make a selection.** They are the names of its chains, in order. Any other list is
refused with its fault: the first name of no chain if there is one; otherwise that there are no
names, or the first chain that stands further in front already.

It is the same whichever text of the JSON object of the names they are read from, and the text that
a selection prints is read as that selection. -/
theorem reading_names (names : List Text) :
    (∀ s, ofNames names = .ok s ↔ names = s.chains.map Chain.name) ∧
    (∀ e, ofNames names = .error e ↔ Fault names e) ∧
    (∀ text, (namesJson names).Written text → ofJsonText text = ofNames names) ∧
    ∀ s : Selection, ofJsonText s.toJsonText = .ok s := by
  refine ⟨fun s => ofNames_eq_ok_iff, fun e => ofNames_eq_error_iff,
    fun text => ofJsonText_of_written, fun s => ?_⟩
  have hwritten := written_namesJson (s.chains.map Chain.name)
  rw [toJsonText, toJson_eq, ofJsonText_of_written hwritten, ofNames_eq_ok_iff]

/-- A name of no chain behind a repetition, in a text with blanks and escapes. -/
theorem reading_names_unknown_behind_repeated :
    ofJsonText "\x7b \"ch\\u0061ins\": [\"Bitcoin\", \"Bitcoin\",\n\"bit\\u0063oin\"] \x7d".toList =
      .error (.unsupportedChain "bitcoin".toList) := by
  obtain ⟨-, herror, hjson, -⟩ :=
    reading_names (["Bitcoin".toList, "Bitcoin".toList] ++ ["bitcoin".toList])
  have hwritten : (namesJson (["Bitcoin".toList, "Bitcoin".toList] ++ ["bitcoin".toList])).Written
      "\x7b \"ch\\u0061ins\": [\"Bitcoin\", \"Bitcoin\",\n\"bit\\u0063oin\"] \x7d".toList :=
    Json.written_of_tokens? (by decide +kernel) (by decide)
  have hbefore : ∀ m ∈ ["Bitcoin".toList, "Bitcoin".toList], ∃ c : Chain, c.name = m :=
    List.forall_mem_cons.2 ⟨⟨.bitcoin, rfl⟩, List.forall_mem_singleton.2 ⟨.bitcoin, rfl⟩⟩
  have hname : ∀ c : Chain, c.name ≠ "bitcoin".toList := (Chain.ofName_eq_error_iff.1 rfl).1
  rw [hjson _ hwritten, herror]
  exact .unknown [] hbefore hname

end Selection

end CoinAddress

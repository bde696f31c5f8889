import CoinAddress.Json.Parser
import CoinAddress.Json.Printer
import CoinAddress.Proofs.JsonTokens

/-!
# Which texts are JSON values

A value is a list of tokens, and its texts are the texts of that list: `Json.Written`. A text is
read as a value just if it is one of its texts: `parse?_eq_some_iff`. What is printed on one line is
one of them: `written_compact`.

Each state of the machine stands for the tokens that led to it. A step adds the token it reads, so a
run that ends with a value has read the tokens of that value and no others. A string without a text
is written in many ways that its token does not tell apart; values that have one are left out there.
-/

namespace CoinAddress.Json

/-! ## The tokens of a value -/

mutual

/-- The tokens of a value. A string without a text is a token that has none. -/
def tokens : Json → List Token
  | .null => [.word none]
  | .bool b => [.word (some b)]
  | .num s => [.num s]
  | .str s => [.str (some s)]
  | .arr items => .openArr :: (itemTokens items ++ [.closeArr])
  | .obj fields => .openObj :: (fieldTokens fields ++ [.closeObj])
  | .unreadable => [.str none]

/-- The tokens of the items of an array with commas between them. -/
def itemTokens : List Json → List Token
  | [] => []
  | [v] => tokens v
  | v :: vs => tokens v ++ .comma :: itemTokens vs

/-- The tokens of the fields of an object with commas between them. -/
def fieldTokens : List (Text × Json) → List Token
  | [] => []
  | [(name, v)] => .str (some name) :: .colon :: tokens v
  | (name, v) :: fs => .str (some name) :: .colon :: (tokens v ++ .comma :: fieldTokens fs)

end

/-- The texts of a value: its tokens, in any of their texts, with any blanks around them. -/
def Written (v : Json) (s : Text) : Prop := TokensWritten v.tokens s

/-! ## The tokens of a value are read as the value -/

/-- A run over tokens goes on from where another has ended. -/
theorem State.run_append (state : State) (ts us : List Token) :
    state.run (ts ++ us) = (state.run ts).bind (·.run us) := by
  induction ts generalizing state with
  | nil => rfl
  | cons t ts ih =>
    rw [List.cons_append, State.run, State.run]
    cases state.step t with
    | none => rfl
    | some next => exact ih next

/-- No value starts with the bracket that closes a list, so an empty list is told apart. -/
theorem exists_tokens_eq_cons (v : Json) : ∃ t ts, v.tokens = t :: ts ∧ t ≠ .closeArr := by
  cases v <;> simp [tokens]

theorem exists_itemTokens_eq_append (v : Json) (vs : List Json) :
    ∃ us, itemTokens (v :: vs) = v.tokens ++ us := by
  cases vs with
  | nil => exact ⟨[], by simp [itemTokens]⟩
  | cons w vs => exact ⟨_, by rw [itemTokens]; simp⟩

theorem exists_fieldTokens_eq_cons (f : Text × Json) (fs : List (Text × Json)) :
    ∃ us, fieldTokens (f :: fs) = .str (some f.1) :: us := by
  cases fs with
  | nil => exact ⟨_, rfl⟩
  | cons g fs => exact ⟨_, by rw [fieldTokens]; simp⟩

/-- A first item is read like any other. -/
theorem run_firstItem (v : Json) (frames : List Frame) (ts : List Token) :
    (State.firstItem frames).run (v.tokens ++ ts) =
      (State.value (.arr [] :: frames)).run (v.tokens ++ ts) := by
  obtain ⟨t, us, htokens, hne⟩ := exists_tokens_eq_cons v
  have hstep : (State.firstItem frames).step t = (State.value (.arr [] :: frames)).step t :=
    if_neg hne
  rw [htokens, List.cons_append, State.run, State.run, hstep]

mutual

/-- The tokens of a value take the machine to the place behind it. -/
theorem run_tokens (frames : List Frame) :
    ∀ v : Json, (State.value frames).run v.tokens = some (.after v frames)
  | .null => rfl
  | .bool _ => rfl
  | .num _ => rfl
  | .str _ => rfl
  | .unreadable => rfl
  | .arr [] => rfl
  | .obj [] => rfl
  | .arr (v :: vs) => by
    have hitems := run_itemTokens [] frames (v :: vs) (by simp)
    obtain ⟨us, hus⟩ := exists_itemTokens_eq_append v vs
    rw [hus, List.append_assoc, ← run_firstItem, ← List.append_assoc, ← hus] at hitems
    exact hitems
  | .obj (f :: fs) => by
    have hfields := run_fieldTokens [] frames (f :: fs) (by simp)
    obtain ⟨us, hus⟩ := exists_fieldTokens_eq_cons f fs
    rw [hus] at hfields
    rw [tokens, hus]
    exact hfields

theorem run_itemTokens (acc : List Json) (frames : List Frame) : ∀ items : List Json, items ≠ [] →
    (State.value (.arr acc :: frames)).run (itemTokens items ++ [.closeArr]) =
      some (.after (.arr (acc.reverse ++ items)) frames)
  | [], h => absurd rfl h
  | [v], _ => by
    rw [itemTokens, State.run_append, run_tokens]
    simp [State.run, State.step]
  | v :: w :: vs, _ => by
    have hrest := run_itemTokens (v :: acc) frames (w :: vs) (by simp)
    have hsplit : itemTokens (v :: w :: vs) ++ [.closeArr] =
        v.tokens ++ .comma :: (itemTokens (w :: vs) ++ [.closeArr]) := by simp [itemTokens]
    rw [List.reverse_cons, List.append_assoc] at hrest
    rw [hsplit, State.run_append, run_tokens]
    exact hrest

theorem run_fieldTokens (acc : List (Text × Json)) (frames : List Frame) :
    ∀ fields : List (Text × Json), fields ≠ [] →
      (State.nextName (some acc) frames).run (fieldTokens fields ++ [.closeObj]) =
        some (.after (.obj (acc.reverse ++ fields)) frames)
  | [], h => absurd rfl h
  | [(name, v)], _ => by
    have hvalue : (State.nextName (some acc) frames).run (.str (some name) :: .colon :: v.tokens) =
        some (.after v (.obj (some acc) (some name) :: frames)) := run_tokens _ v
    rw [fieldTokens, State.run_append, hvalue]
    simp [State.run, State.step, closeFields, addField]
  | (name, v) :: f :: fs, _ => by
    have hvalue : (State.nextName (some acc) frames).run (.str (some name) :: .colon :: v.tokens) =
        some (.after v (.obj (some acc) (some name) :: frames)) := run_tokens _ v
    have hrest := run_fieldTokens ((name, v) :: acc) frames (f :: fs) (by simp)
    have hsplit : fieldTokens ((name, v) :: f :: fs) ++ [.closeObj] =
        (.str (some name) :: .colon :: v.tokens) ++
          .comma :: (fieldTokens (f :: fs) ++ [.closeObj]) := by simp [fieldTokens]
    rw [List.reverse_cons, List.append_assoc] at hrest
    rw [hsplit, State.run_append, hvalue]
    exact hrest

end

/-! ## Only the tokens of a value are read as it -/

/-- The tokens of items that each have a comma behind them. -/
def itemsRead (items : List Json) : List Token := items.flatMap fun v => v.tokens ++ [.comma]

/-- The tokens of fields that each have a comma behind them. -/
def fieldsRead (fields : List (Text × Json)) : List Token :=
  fields.flatMap fun f => .str (some f.1) :: .colon :: (f.2.tokens ++ [.comma])

theorem itemTokens_concat (items : List Json) (v : Json) :
    itemTokens (items ++ [v]) = itemsRead items ++ v.tokens := by
  induction items with
  | nil => rfl
  | cons w items ih =>
    have hcons : itemTokens (w :: (items ++ [v])) =
        w.tokens ++ .comma :: itemTokens (items ++ [v]) := by
      cases items <;> rfl
    rw [List.cons_append, hcons, ih]
    simp [itemsRead]

theorem fieldTokens_concat (fields : List (Text × Json)) (name : Text) (v : Json) :
    fieldTokens (fields ++ [(name, v)]) =
      fieldsRead fields ++ .str (some name) :: .colon :: v.tokens := by
  induction fields with
  | nil => rfl
  | cons f fields ih =>
    have hcons : fieldTokens (f :: (fields ++ [(name, v)])) = .str (some f.1) :: .colon ::
        (f.2.tokens ++ .comma :: fieldTokens (fields ++ [(name, v)])) := by
      cases fields <;> rfl
    rw [List.cons_append, hcons, ih]
    simp [fieldsRead]

/-- The tokens that opened an array or object and were read in it since. -/
def Frame.tokens : Frame → List Token
  | .arr items => .openArr :: itemsRead items.reverse
  | .obj (some fields) (some name) =>
    .openObj :: (fieldsRead fields.reverse ++ [.str (some name), .colon])
  | .obj _ _ => [.str none]

/-- The tokens of what is open, from the outside to the inside. -/
def framesTokens (frames : List Frame) : List Token := frames.reverse.flatMap Frame.tokens

/-- The tokens that lead to a state, if each name and string had a text. -/
def State.tokens : State → List Token
  | .value frames => framesTokens frames
  | .firstItem frames => framesTokens frames ++ [.openArr]
  | .firstName frames => framesTokens frames ++ [.openObj]
  | .nextName (some fields) frames => framesTokens frames ++ .openObj :: fieldsRead fields.reverse
  | .nextName none _ => [.str none]
  | .colon (some fields) (some name) frames =>
    framesTokens frames ++ .openObj :: (fieldsRead fields.reverse ++ [.str (some name)])
  | .colon _ _ _ => [.str none]
  | .after v frames => framesTokens frames ++ v.tokens

theorem framesTokens_cons (frame : Frame) (frames : List Frame) :
    framesTokens (frame :: frames) = framesTokens frames ++ frame.tokens := by
  simp [framesTokens]

theorem startValue_tokens {t : Token} {frames : List Frame} {next : State}
    (h : startValue t frames = some next) :
    next.tokens = framesTokens frames ++ [t] := by
  unfold startValue at h
  split at h <;> cases h <;> rfl

/-- One step: the state stands for one token more. -/
theorem step_tokens {state next : State} {t : Token} (h : state.step t = some next)
    (hne : .str none ∉ next.tokens) : next.tokens = state.tokens ++ [t] := by
  unfold State.step at h
  split at h
  case h_1 => exact startValue_tokens h
  case h_2 frames =>
    split at h
    · next ht =>
      cases h
      simp [State.tokens, ht, Json.tokens, itemTokens]
    · rw [startValue_tokens h, framesTokens_cons]
      rfl
  case h_3 frames =>
    split at h
    · cases h
      simp [State.tokens, Json.tokens, fieldTokens]
    · next s =>
      cases h
      cases s with
      | none => simp [State.tokens] at hne
      | some s => simp [State.tokens, fieldsRead]
    · cases h
  case h_4 fields frames =>
    split at h
    · next s =>
      cases h
      cases fields <;> cases s <;> simp [State.tokens] at hne ⊢
    · cases h
  case h_5 fields name frames =>
    split at h
    · next ht =>
      cases h
      cases fields <;> cases name <;>
        simp [State.tokens, framesTokens_cons, Frame.tokens, ht] at hne ⊢
    · cases h
  case h_6 v items frames =>
    split at h
    · cases h
      simp [State.tokens, framesTokens_cons, Frame.tokens, itemsRead]
    · cases h
      simp [State.tokens, framesTokens_cons, Frame.tokens, Json.tokens, itemTokens_concat]
    · cases h
  case h_7 v fields name frames =>
    split at h
    · cases h
      cases fields <;> cases name <;>
        simp [State.tokens, framesTokens_cons, Frame.tokens, addField, fieldsRead] at hne ⊢
    · cases h
      cases fields <;> cases name <;>
        simp [State.tokens, framesTokens_cons, Frame.tokens, addField, closeFields, Json.tokens,
          fieldTokens_concat] at hne ⊢
    · cases h
  case h_8 => cases h

/-- A run: what a state stands for at the end is what it stood for and the tokens read since. -/
theorem tokens_of_run {state final : State} {ts : List Token} (h : state.run ts = some final)
    (hne : .str none ∉ final.tokens) : final.tokens = state.tokens ++ ts := by
  induction ts generalizing state with
  | nil =>
    cases h
    rw [List.append_nil]
  | cons t ts ih =>
    rw [State.run] at h
    split at h
    · next next hstep =>
      have hfinal := ih h
      rw [hfinal, List.mem_append, not_or] at hne
      rw [hfinal, step_tokens hstep hne.1, List.append_assoc]
      rfl
    · cases h

/-! ## The texts of a value are read as the value -/

/-- Behind a value only a comma or an end is read. -/
theorem eq_of_step_after {v : Json} {frames : List Frame} {t : Token} {next : State}
    (h : (State.after v frames).step t = some next) :
    t = .comma ∨ t = .closeArr ∨ t = .closeObj := by
  cases t with
  | comma => exact .inl rfl
  | closeArr => exact .inr (.inl rfl)
  | closeObj => exact .inr (.inr rfl)
  | _ => rcases frames with _ | ⟨_ | _, frames⟩ <;> cases h

theorem exists_after_of_step_num {state next : State} {s : Text}
    (h : state.step (.num s) = some next) : ∃ v frames, next = .after v frames := by
  cases state with
  | value frames => exact ⟨_, _, (Option.some.inj h).symm⟩
  | firstItem frames => exact ⟨_, _, (Option.some.inj h).symm⟩
  | after v frames => rcases frames with _ | ⟨_ | _, frames⟩ <;> cases h
  | _ => cases h

/-- What is read behind a value goes on with no number. -/
theorem not_continuesNumber_of_run {v : Json} {frames : List Frame} {ts : List Token} {s : Text}
    {final : State} (hs : TokensWritten ts s) (h : (State.after v frames).run ts = some final) :
    ∀ c ∈ s.head?, continuesNumber c = false := by
  have hblanks : ∀ c, isBlank c = true → continuesNumber c = false := by
    intro c hc
    rcases isBlank_iff.1 hc with rfl | rfl | rfl | rfl <;> rfl
  cases hs with
  | nil hblank => exact fun c hc => hblanks c (hblank c (List.mem_of_mem_head? hc))
  | @cons blank u _ t _ hblank ht _ =>
    cases blank with
    | cons b blank =>
      rintro c hc
      cases hc
      exact hblanks _ (hblank _ List.mem_cons_self)
    | nil =>
      rw [State.run] at h
      split at h
      · next next hstep =>
        rintro c hc
        rcases eq_of_step_after hstep with rfl | rfl | rfl <;> cases ht <;> cases hc <;> rfl
      · cases h

/-- A text of tokens that can be run over is cut into these tokens. -/
theorem tokens?_of_written {state final : State} {ts : List Token} {s : Text}
    (hs : TokensWritten ts s) (h : state.run ts = some final) : tokens? s = some ts := by
  induction hs generalizing state with
  | nil hblank => exact tokens?_of_blank hblank
  | cons hblank ht hs ih =>
    rw [State.run] at h
    split at h
    · next next hstep =>
      rw [tokens?_cons hblank ht, ih h]
      · rfl
      · rintro s rfl
        obtain ⟨v, frames, rfl⟩ := exists_after_of_step_num hstep
        exact not_continuesNumber_of_run hs h
    · cases h

/-- Each text of a value is read as it. -/
theorem parse?_of_written {v : Json} {s : Text} (h : v.Written s) : parse? s = some v := by
  rw [parse?, tokens?_of_written h (run_tokens [] v)]
  simp only [run_tokens]

/-- A text is read as a value just if it is one of its texts. -/
theorem parse?_eq_some_iff {v : Json} (hne : .str none ∉ v.tokens) {s : Text} :
    parse? s = some v ↔ v.Written s := by
  refine ⟨fun h => ?_, parse?_of_written⟩
  rw [parse?] at h
  split at h
  · cases h
  · next ts hts =>
    split at h
    · next hrun =>
      cases h
      have htokens := tokens_of_run hrun hne
      have hv : v.tokens = ts := htokens
      rw [← hv] at hts
      exact written_of_tokens? hts hne
    · cases h

/-! ## Writing -/

/-- The text of a token as it is printed. -/
def Token.text : Token → Text
  | .openArr => ['[']
  | .closeArr => [']']
  | .openObj => ['\x7b']
  | .closeObj => ['\x7d']
  | .colon => [':']
  | .comma => [',']
  | .word (some true) => "true".toList
  | .word (some false) => "false".toList
  | .num s => s
  | .str (some s) => quoted s
  | .word none | .str none => "null".toList

mutual

/-- A value on one line is the texts of its tokens. -/
theorem compact_eq_flatMap : ∀ v : Json, v.compact = v.tokens.flatMap Token.text
  | .null => rfl
  | .bool true => rfl
  | .bool false => rfl
  | .num s => (List.append_nil s).symm
  | .str s => (List.append_nil (quoted s)).symm
  | .unreadable => rfl
  | .arr items => by
    rw [compact, tokens, compactItems_eq_flatMap items]
    simp [Token.text]
  | .obj fields => by
    rw [compact, tokens, compactFields_eq_flatMap fields]
    simp [Token.text]

theorem compactItems_eq_flatMap : ∀ items : List Json,
    compactItems items = (itemTokens items).flatMap Token.text
  | [] => rfl
  | [v] => compact_eq_flatMap v
  | v :: w :: vs => by
    have hrest := compactItems_eq_flatMap (w :: vs)
    rw [compactItems, itemTokens, compact_eq_flatMap v, hrest]
    · simp [Token.text]
    all_goals exact fun h => nomatch h

theorem compactFields_eq_flatMap : ∀ fields : List (Text × Json),
    compactFields fields = (fieldTokens fields).flatMap Token.text
  | [] => rfl
  | [(name, v)] => by
    rw [compactFields, fieldTokens, compact_eq_flatMap v]
    simp [Token.text]
  | (name, v) :: f :: fs => by
    have hrest := compactFields_eq_flatMap (f :: fs)
    rw [compactFields, fieldTokens, compact_eq_flatMap v, hrest]
    · simp [Token.text]
    all_goals exact fun h => nomatch h

end

/-- Whether each token of a value has a text: its numbers are numbers and its strings texts. -/
def HasText (v : Json) : Prop := ∀ t ∈ v.tokens, t.Written t.text

/-- Every string can be written, whatever its characters are. -/
theorem hasText_str (s : Text) : (Json.str s).HasText := by
  rw [HasText, tokens, List.forall_mem_singleton]
  exact .str (stringWritten_quoted s)

theorem HasText.items {items : List Json} (h : ∀ v ∈ items, v.HasText) :
    ∀ t ∈ itemTokens items, t.Written t.text := by
  induction items with
  | nil => exact List.forall_mem_nil _
  | cons v vs ih =>
    rw [List.forall_mem_cons] at h
    cases vs with
    | nil => exact h.1
    | cons w vs =>
      rw [itemTokens, List.forall_mem_append, List.forall_mem_cons]
      · exact ⟨h.1, .comma, ih h.2⟩
      · exact fun h => nomatch h

theorem HasText.fields {fields : List (Text × Json)} (h : ∀ f ∈ fields, f.2.HasText) :
    ∀ t ∈ fieldTokens fields, t.Written t.text := by
  induction fields with
  | nil => exact List.forall_mem_nil _
  | cons f fs ih =>
    rw [List.forall_mem_cons] at h
    have hname : Token.Written (.str (some f.1)) (quoted f.1) := .str (stringWritten_quoted f.1)
    cases fs with
    | nil =>
      rw [fieldTokens, List.forall_mem_cons, List.forall_mem_cons]
      exact ⟨hname, .colon, h.1⟩
    | cons g fs =>
      rw [fieldTokens, List.forall_mem_cons, List.forall_mem_cons, List.forall_mem_append,
        List.forall_mem_cons]
      · exact ⟨hname, .colon, h.1, .comma, ih h.2⟩
      · exact fun h => nomatch h

theorem hasText_arr {items : List Json} (h : ∀ v ∈ items, v.HasText) :
    (Json.arr items).HasText := by
  rw [HasText, tokens, List.forall_mem_cons, List.forall_mem_append, List.forall_mem_singleton]
  exact ⟨.openArr, HasText.items h, .closeArr⟩

theorem hasText_obj {fields : List (Text × Json)} (h : ∀ f ∈ fields, f.2.HasText) :
    (Json.obj fields).HasText := by
  rw [HasText, tokens, List.forall_mem_cons, List.forall_mem_append, List.forall_mem_singleton]
  exact ⟨.openObj, HasText.fields h, .closeObj⟩

theorem tokensWritten_flatMap {ts : List Token} (h : ∀ t ∈ ts, t.Written t.text) :
    TokensWritten ts (ts.flatMap Token.text) := by
  induction ts with
  | nil => exact .nil (by simp)
  | cons t ts ih =>
    rw [List.forall_mem_cons] at h
    have hnil : ∀ c ∈ ([] : Text), isBlank c = true := List.forall_mem_nil _
    exact TokensWritten.cons hnil h.1 (ih h.2)

/-- What is printed of a value is one of its texts, if each of its tokens has a text. -/
theorem written_compact {v : Json} (h : v.HasText) : v.Written v.compact := by
  rw [compact_eq_flatMap]
  exact tokensWritten_flatMap h

end CoinAddress.Json

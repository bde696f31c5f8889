import CoinAddress.Json.Forms
import CoinAddress.Proofs.JsonText

/-!
# Records in JSON

A value that is printed on many lines is printed in one of its texts, as it is on one line:
`Json.written_pretty`. A record has its fields under their names, in whichever order they were
printed: `Json.recordFields?_record`. A field that is left out leaves nothing in the text:
`Json.compact_record`. So what is printed of an address or of a report is read back, whichever
fields it has: `printed_records_are_read`.
-/

namespace CoinAddress

namespace Json

/-! ## On many lines -/

theorem TokensWritten.blank_append {blank s : Text} {ts : List Token}
    (hblank : ∀ c ∈ blank, isBlank c = true) (h : TokensWritten ts s) :
    TokensWritten ts (blank ++ s) := by
  cases h with
  | nil h => exact .nil (List.forall_mem_append.2 ⟨hblank, h⟩)
  | cons h ht hs =>
    rw [← List.append_assoc]
    exact .cons (List.forall_mem_append.2 ⟨hblank, h⟩) ht hs

/-- Texts of tokens can be put together. -/
theorem TokensWritten.append {s t : Text} {ts us : List Token} (h : TokensWritten ts s)
    (h' : TokensWritten us t) : TokensWritten (ts ++ us) (s ++ t) := by
  induction h with
  | nil hblank => exact h'.blank_append hblank
  | cons hblank ht _ ih =>
    rw [List.append_assoc, List.append_assoc]
    exact .cons hblank ht ih

theorem TokensWritten.singleton {t : Token} {u : Text} (h : t.Written u) :
    TokensWritten [t] u := by
  have hnil : ∀ c ∈ ([] : Text), isBlank c = true := List.forall_mem_nil _
  have hone := TokensWritten.cons hnil h (.nil hnil)
  rwa [List.nil_append, List.append_nil] at hone

theorem isBlank_newLine (level : Nat) : ∀ c ∈ newLine level, isBlank c = true := by
  intro c hc
  rcases List.mem_cons.1 hc with rfl | hc
  · rfl
  · rw [(List.mem_replicate.1 hc).2]
    rfl

/-- An array or an object: what is in it is written between its brackets, the last of them on a
line of its own. -/
theorem TokensWritten.enclosed {first last : Token} {s t u : Text} {ts : List Token} {level : Nat}
    (hfirst : first.Written s) (h : TokensWritten ts t) (hlast : last.Written u) :
    TokensWritten (first :: (ts ++ [last])) (s ++ t ++ newLine level ++ u) := by
  have hend := (TokensWritten.singleton hlast).blank_append (isBlank_newLine level)
  rw [List.append_assoc, List.append_assoc]
  exact (TokensWritten.singleton hfirst).append (h.append hend)

/-- A field: its name, the colon with a blank behind it, and its value. -/
theorem TokensWritten.field (level : Nat) (name : Text) {s : Text} {ts : List Token}
    (h : TokensWritten ts s) : TokensWritten (.str (some name) :: .colon :: ts)
      (newLine level ++ quoted name ++ [':', ' '] ++ s) := by
  have hname := TokensWritten.singleton (.str (stringWritten_quoted name))
  have hblank : ∀ c ∈ [' '], isBlank c = true := List.forall_mem_singleton.2 rfl
  have hcolon := (TokensWritten.singleton .colon).append (h.blank_append hblank)
  have hline := (hname.append hcolon).blank_append (isBlank_newLine level)
  rw [List.append_assoc, List.append_assoc]
  exact hline

mutual

/-- A value on many lines is one of its texts, at any level. -/
theorem written_prettyAt (level : Nat) :
    ∀ v : Json, v.HasText → TokensWritten v.tokens (prettyAt level v)
  | .null, _ => .singleton .wordNull
  | .bool true, _ => .singleton .wordTrue
  | .bool false, _ => .singleton .wordFalse
  | .num s, h => .singleton (h (.num s) List.mem_cons_self)
  | .str s, h => .singleton (h (.str (some s)) List.mem_cons_self)
  | .unreadable, h => nomatch h (.str none) List.mem_cons_self
  | .arr [], _ => .append (.singleton .openArr) (.singleton .closeArr)
  | .obj [], _ => .append (.singleton .openObj) (.singleton .closeObj)
  | .arr (v :: vs), h => by
    have hitems := written_prettyItems (level + 1) (v :: vs) fun t ht =>
      h t (List.mem_cons_of_mem _ (List.mem_append_left _ ht))
    rw [prettyAt]
    · exact .enclosed .openArr hitems .closeArr
    · exact fun h => nomatch h
  | .obj (f :: fs), h => by
    have hfields := written_prettyFields (level + 1) (f :: fs) fun t ht =>
      h t (List.mem_cons_of_mem _ (List.mem_append_left _ ht))
    rw [prettyAt]
    · exact .enclosed .openObj hfields .closeObj
    · exact fun h => nomatch h

theorem written_prettyItems (level : Nat) :
    ∀ items : List Json, (∀ t ∈ itemTokens items, t.Written t.text) →
      TokensWritten (itemTokens items) (prettyItems level items)
  | [], _ => .nil (List.forall_mem_nil _)
  | [v], h => (written_prettyAt level v h).blank_append (isBlank_newLine level)
  | v :: w :: vs, h => by
    rw [itemTokens, List.forall_mem_append, List.forall_mem_cons] at h
    · have hitem := (written_prettyAt level v h.1).blank_append (isBlank_newLine level)
      have hrest := (TokensWritten.singleton .comma).append
        (written_prettyItems level (w :: vs) h.2.2)
      rw [prettyItems, itemTokens, List.append_assoc]
      · exact hitem.append hrest
      all_goals exact fun h => nomatch h
    · exact fun h => nomatch h

theorem written_prettyFields (level : Nat) :
    ∀ fields : List (Text × Json), (∀ t ∈ fieldTokens fields, t.Written t.text) →
      TokensWritten (fieldTokens fields) (prettyFields level fields)
  | [], _ => .nil (List.forall_mem_nil _)
  | [(name, v)], h => by
    rw [fieldTokens, List.forall_mem_cons, List.forall_mem_cons] at h
    exact .field level name (written_prettyAt level v h.2.2)
  | (name, v) :: f :: fs, h => by
    rw [fieldTokens, List.forall_mem_cons, List.forall_mem_cons, List.forall_mem_append,
      List.forall_mem_cons] at h
    · have hfield := TokensWritten.field level name (written_prettyAt level v h.2.2.1)
      have hrest := (TokensWritten.singleton .comma).append
        (written_prettyFields level (f :: fs) h.2.2.2.2)
      rw [prettyFields, fieldTokens, List.append_assoc _ [',']]
      · exact hfield.append hrest
      all_goals exact fun h => nomatch h
    · exact fun h => nomatch h

end

/-- What is printed of a value on many lines is one of its texts, if each of its tokens has a
text. -/
theorem written_pretty {v : Json} (h : v.HasText) : v.Written v.pretty := written_prettyAt 0 v h

/-- Blanks behind a value belong to its text. -/
theorem Written.append_blank {v : Json} {s blank : Text} (h : v.Written s)
    (hblank : ∀ c ∈ blank, isBlank c = true) : v.Written (s ++ blank) := by
  have hall := TokensWritten.append h (.nil hblank)
  rwa [List.append_nil] at hall

/-! ## Records -/

theorem hasText_record {fields : List (Text × Option Json)}
    (h : ∀ f ∈ fields, ∀ v ∈ f.2, v.HasText) : (record fields).HasText := by
  refine hasText_obj fun f hf => ?_
  obtain ⟨⟨name, value?⟩, hmem, hvalue⟩ := List.mem_filterMap.1 hf
  obtain ⟨v, hv, rfl⟩ := Option.map_eq_some_iff.1 hvalue
  exact h _ hmem v hv

/-- The value that a record is given for a name, if it is given one. -/
def valueOf? (fields : List (Text × Option Json)) (name : Text) : Option Json :=
  (fields.find? fun f => f.1 = name).bind (·.2)

/-- The fields of one name in a record are at most one, since no name comes twice. -/
theorem filter_record {fields : List (Text × Option Json)}
    (hnodup : (fields.map Prod.fst).Nodup) (name : Text) :
    ((fields.filterMap fun f => f.2.map (f.1, ·)).filter fun f => f.1 = name) =
      ((valueOf? fields name).map (name, ·)).toList := by
  induction fields with
  | nil => rfl
  | cons f fields ih =>
    obtain ⟨first, value?⟩ := f
    rw [List.map_cons, List.nodup_cons] at hnodup
    have hrest := ih hnodup.2
    by_cases hname : first = name
    · subst hname
      have hnone : valueOf? fields first = none := by
        rw [valueOf?, List.find?_eq_none.2, Option.bind_none]
        intro g hg heq
        rw [decide_eq_true_eq] at heq
        exact hnodup.1 (List.mem_map.2 ⟨g, hg, heq⟩)
      rw [hnone] at hrest
      cases value? <;> simp [valueOf?, hrest]
    · have hskip : valueOf? ((first, value?) :: fields) name = valueOf? fields name := by
        rw [valueOf?, List.find?_cons_of_neg (by simpa using hname), valueOf?]
      rw [hskip, ← hrest]
      cases value? <;> simp [hname]

theorem fieldNamed?_record {fields : List (Text × Option Json)}
    (hnodup : (fields.map Prod.fst).Nodup) (name : Text) :
    fieldNamed? name (fields.filterMap fun f => f.2.map (f.1, ·)) =
      some (valueOf? fields name) := by
  rw [fieldNamed?, filter_record hnodup]
  cases valueOf? fields name <;> rfl

/-- **A record is read as what it was given:** whichever names are asked for, in any order, each
has the value that it had, or none if it was left out. -/
theorem recordFields?_record {fields : List (Text × Option Json)}
    (hnodup : (fields.map Prod.fst).Nodup) (names : List Text) :
    (record fields).recordFields? false names = some (names.map (valueOf? fields)) := by
  rw [record, recordFields?, Bool.false_and, if_neg Bool.false_ne_true]
  induction names with
  | nil => rfl
  | cons name names ih =>
    rw [List.mapM_cons, fieldNamed?_record hnodup, ih]
    rfl

/-! ## Records on one line -/

/-- A field on one line. -/
def compactField (name : Text) (v : Json) : Text := quoted name ++ [':'] ++ v.compact

theorem compactFields_cons (name : Text) (v : Json) (fields : List (Text × Json)) :
    compactFields ((name, v) :: fields) =
      compactField name v ++ fields.flatMap fun f => [','] ++ compactField f.1 f.2 := by
  induction fields generalizing name v with
  | nil => exact (List.append_nil _).symm
  | cons f fields ih =>
    have hhead : compactFields ((name, v) :: f :: fields) =
        compactField name v ++ [','] ++ compactFields (f :: fields) := by
      rw [compactFields, compactField]
      exact fun h => nomatch h
    rw [hhead, ih, List.flatMap_cons, List.append_assoc, List.append_assoc]

/-- A record on one line: a field that is left out leaves nothing in the text. -/
theorem compact_record (name : Text) (v : Json) (fields : List (Text × Option Json)) :
    (record ((name, some v) :: fields)).compact = ['\x7b'] ++ compactField name v ++
      (fields.flatMap fun f => f.2.elim [] fun w => [','] ++ compactField f.1 w) ++ ['\x7d'] := by
  have hrest : ((fields.filterMap fun f => f.2.map (f.1, ·)).flatMap fun f =>
      [','] ++ compactField f.1 f.2) =
      fields.flatMap fun f => f.2.elim [] fun w => [','] ++ compactField f.1 w := by
    rw [List.filterMap_eq_flatMap_toList, List.flatMap_assoc]
    congr 1
    funext f
    cases f.2 with
    | none => rfl
    | some w => exact List.append_nil _
  have hcons : (((name, some v) :: fields).filterMap fun f => f.2.map (f.1, ·)) =
      (name, v) :: fields.filterMap fun f => f.2.map (f.1, ·) := rfl
  rw [record, compact, hcons, compactFields_cons, hrest, List.append_assoc _ (compactField name v)]

end Json

/-! ## Addresses and reports -/

theorem Chain.ofJson?_toJson (c : Chain) : ofJson? c.toJson = some c := ofName?_name c

theorem ErrorCode.ofJson?_toJson (c : ErrorCode) : ofJson? c.toJson = some c := ofName?_name c

theorem Stage.ofJson?_toJson (t : Stage) : ofJson? t.toJson = some t := ofName?_name t

namespace Address

theorem ofJson?_toJson (a : Address) : ofJson? a.toJson = some a := by
  have hnames : ["chain".toList, "address".toList].Nodup := by decide
  have hread : a.toJson.recordFields? false ["chain".toList, "address".toList] =
      some [some a.chain.toJson, some (.str a.text)] := by
    refine Json.recordFields?_record ?_ _
    exact hnames
  rw [ofJson?, hread]
  simp [Chain.ofJson?_toJson, Json.text?]

theorem hasText_toJson (a : Address) : a.toJson.HasText := by
  refine Json.hasText_record ?_
  simp [Chain.toJson, Json.hasText_str]

/-- The text of an address: its chain and then its own text, each escaped. -/
theorem compact_toJson (a : Address) : a.toJson.compact =
    ['\x7b'] ++ Json.compactField "chain".toList (.str a.chain.name) ++
      [','] ++ Json.compactField "address".toList (.str a.text) ++ ['\x7d'] := by
  rw [toJson, Json.compact_record, Chain.toJson]
  simp only [List.flatMap_cons, List.flatMap_nil, Option.elim_some, List.append_nil,
    List.append_assoc]

/-- The address that a JSON text spells. -/
def ofJsonText? (s : Text) : Option Address := (Json.parse? s).bind ofJson?

theorem ofJsonText?_of_written {a : Address} {s : Text} (h : a.toJson.Written s) :
    ofJsonText? s = some a := by
  rw [ofJsonText?, Json.parse?_of_written h, Option.bind_some, ofJson?_toJson]

end Address

namespace ErrorReport

/-- A report is read from a record that has its values under their names, in any order. -/
theorem ofJson?_record {r : ErrorReport} {fields : List (Text × Option Json)}
    (hnodup : (fields.map Prod.fst).Nodup)
    (hvalues : ["code".toList, "message".toList, "chain".toList, "stage".toList].map
        (Json.valueOf? fields) =
      [some r.code.toJson, some (.str r.message), r.chain?.map .str, r.stage?.map Stage.toJson]) :
    ofJson? (Json.record fields) = some r := by
  have hread := Json.recordFields?_record hnodup
    ["code".toList, "message".toList, "chain".toList, "stage".toList]
  have hchain : Json.optional? Json.text? (r.chain?.map .str) = some r.chain? := by
    cases r.chain? <;> rfl
  have hstage : Json.optional? Stage.ofJson? (r.stage?.map Stage.toJson) = some r.stage? := by
    cases r.stage? with
    | none => rfl
    | some t => exact congrArg (Option.map some) t.ofJson?_toJson
  rw [hvalues] at hread
  rw [ofJson?, hread]
  simp [ErrorCode.ofJson?_toJson, Json.text?, hchain, hstage]

theorem ofJson?_toJson (r : ErrorReport) : ofJson? r.toJson = some r := by
  have hnames : ["code".toList, "message".toList, "chain".toList, "stage".toList].Nodup := by
    decide
  exact ofJson?_record hnames rfl

theorem ofJson?_toSortedJson (r : ErrorReport) : ofJson? r.toSortedJson = some r := by
  have hnames : ["chain".toList, "code".toList, "message".toList, "stage".toList].Nodup := by
    decide
  exact ofJson?_record hnames rfl

theorem hasText_toJson (r : ErrorReport) : r.toJson.HasText := by
  refine Json.hasText_record ?_
  simp [ErrorCode.toJson, Stage.toJson, Json.hasText_str]

theorem hasText_toSortedJson (r : ErrorReport) : r.toSortedJson.HasText := by
  refine Json.hasText_record ?_
  simp [ErrorCode.toJson, Stage.toJson, Json.hasText_str]

/-- The report that a JSON text spells. -/
def ofJsonText? (s : Text) : Option ErrorReport := (Json.parse? s).bind ofJson?

theorem ofJsonText?_of_written {v : Json} {r : ErrorReport} {s : Text} (hread : ofJson? v = some r)
    (h : v.Written s) : ofJsonText? s = some r := by
  rw [ofJsonText?, Json.parse?_of_written h, Option.bind_some, hread]

/-- The text of a report: its code and its message, and then the chain and the stage, of which one
that is not there leaves nothing behind. -/
theorem compact_toJson (r : ErrorReport) : r.toJson.compact =
    ['\x7b'] ++ Json.compactField "code".toList (.str r.code.name) ++
      [','] ++ Json.compactField "message".toList (.str r.message) ++
      (r.chain?.elim [] fun name => [','] ++ Json.compactField "chain".toList (.str name)) ++
      (r.stage?.elim [] fun stage => [','] ++ Json.compactField "stage".toList (.str stage.name)) ++
      ['\x7d'] := by
  rw [toJson, Json.compact_record, ErrorCode.toJson]
  simp only [List.flatMap_cons, List.flatMap_nil, Option.elim_map, Option.elim_some,
    List.append_nil, List.append_assoc]
  rfl

end ErrorReport

/-- **What is printed of an address or of a report is read back,** whatever characters its texts
have. A report has a field for its chain and one for its stage just if it has the value; its fields
may be printed in the order of their names as well. -/
theorem printed_records_are_read :
    (∀ a : Address,
      a.toJson.compact =
        ['\x7b'] ++ Json.compactField "chain".toList (.str a.chain.name) ++
          [','] ++ Json.compactField "address".toList (.str a.text) ++ ['\x7d'] ∧
      Address.ofJsonText? a.toJson.compact = some a ∧
      Address.ofJsonText? a.toJson.pretty = some a) ∧
    ∀ r : ErrorReport,
      r.toJson.compact =
        ['\x7b'] ++ Json.compactField "code".toList (.str r.code.name) ++
          [','] ++ Json.compactField "message".toList (.str r.message) ++
          (r.chain?.elim [] fun name => [','] ++ Json.compactField "chain".toList (.str name)) ++
          (r.stage?.elim [] fun stage =>
            [','] ++ Json.compactField "stage".toList (.str stage.name)) ++
          ['\x7d'] ∧
      ErrorReport.ofJsonText? r.toJson.compact = some r ∧
      ErrorReport.ofJsonText? r.toSortedJson.compact = some r := by
  constructor
  · intro a
    have htext := a.hasText_toJson
    exact ⟨a.compact_toJson, Address.ofJsonText?_of_written (Json.written_compact htext),
      Address.ofJsonText?_of_written (Json.written_pretty htext)⟩
  · intro r
    have hsorted := Json.written_compact r.hasText_toSortedJson
    refine ⟨r.compact_toJson, ?_, ?_⟩
    · exact ErrorReport.ofJsonText?_of_written r.ofJson?_toJson
        (Json.written_compact r.hasText_toJson)
    · exact ErrorReport.ofJsonText?_of_written r.ofJson?_toSortedJson hsorted

end CoinAddress

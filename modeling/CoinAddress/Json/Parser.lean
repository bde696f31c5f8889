import CoinAddress.Json.Token
import CoinAddress.Json.Value

/-!
# Reading JSON

The tokens of a text drive a machine whose state says what may come next and which arrays and
objects are still open. There is no limit to how deep they may be nested.

The text is a value if the machine ends with one value and nothing open.
-/

namespace CoinAddress.Json

/--
An array or object that is still open, with what it holds so far, last first. An object also has
the name whose value comes next; `fields` is `none` once a name without a text has been seen.
-/
inductive Frame where
  | arr (items : List Json)
  | obj (fields : Option (List (Text × Json))) (name : Option Text)

/-- What may come next. -/
inductive State where
  /-- A value. -/
  | value (frames : List Frame)
  /-- A value or the end of an empty array. -/
  | firstItem (frames : List Frame)
  /-- A name or the end of an empty object. -/
  | firstName (frames : List Frame)
  /-- A name, in an object with these fields. -/
  | nextName (fields : Option (List (Text × Json))) (frames : List Frame)
  /-- The colon behind a name. -/
  | colon (fields : Option (List (Text × Json))) (name : Option Text) (frames : List Frame)
  /-- A comma or an end, behind a value. -/
  | after (v : Json) (frames : List Frame)

/-- An object with these fields, last first. -/
def closeFields (fields : Option (List (Text × Json))) : Json :=
  match fields with
  | some fields => .obj fields.reverse
  | none => .unreadable

/-- The fields with one more, last first; none if its name has no text. -/
def addField (fields : Option (List (Text × Json))) (name : Option Text) (v : Json) :
    Option (List (Text × Json)) :=
  match fields, name with
  | some fields, some name => some ((name, v) :: fields)
  | _, _ => none

/-- The state after the token where a value starts. -/
def startValue (t : Token) (frames : List Frame) : Option State :=
  match t with
  | .openArr => some (.firstItem frames)
  | .openObj => some (.firstName frames)
  | .word none => some (.after .null frames)
  | .word (some b) => some (.after (.bool b) frames)
  | .num s => some (.after (.num s) frames)
  | .str (some s) => some (.after (.str s) frames)
  | .str none => some (.after .unreadable frames)
  | .closeArr | .closeObj | .colon | .comma => none

/-- The state after one more token. -/
def State.step (state : State) (t : Token) : Option State :=
  match state with
  | .value frames => startValue t frames
  | .firstItem frames =>
    if t = .closeArr then some (.after (.arr []) frames) else startValue t (.arr [] :: frames)
  | .firstName frames =>
    match t with
    | .closeObj => some (.after (.obj []) frames)
    | .str s => some (.colon (some []) s frames)
    | _ => none
  | .nextName fields frames =>
    match t with
    | .str s => some (.colon fields s frames)
    | _ => none
  | .colon fields name frames =>
    if t = .colon then some (.value (.obj fields name :: frames)) else none
  | .after v (.arr items :: frames) =>
    match t with
    | .comma => some (.value (.arr (v :: items) :: frames))
    | .closeArr => some (.after (.arr (v :: items).reverse) frames)
    | _ => none
  | .after v (.obj fields name :: frames) =>
    match t with
    | .comma => some (.nextName (addField fields name v) frames)
    | .closeObj => some (.after (closeFields (addField fields name v)) frames)
    | _ => none
  | .after _ [] => none

/-- The state after some tokens. -/
def State.run (state : State) : List Token → Option State
  | [] => some state
  | t :: ts =>
    match state.step t with
    | some next => next.run ts
    | none => none

/-- The value of a text. -/
def parse? (s : Text) : Option Json :=
  match tokens? s with
  | none => none
  | some ts =>
    match (State.value []).run ts with
    | some (.after v []) => some v
    | _ => none

end CoinAddress.Json

import CoinAddress.Text.Basic

/-!
# JSON values

Numbers keep their spelling, and the fields of an object their order; a name may occur twice.

A string may spell half of a surrogate pair without the other half. Such a string has no text, so
it, and an object that uses it as a name, is `unreadable`: it may stand where a value is skipped
and nowhere else.
-/

namespace CoinAddress

/-- A JSON value. -/
inductive Json where
  | null
  | bool (b : Bool)
  | num (spelling : Text)
  | str (s : Text)
  | arr (items : List Json)
  | obj (fields : List (Text × Json))
  | unreadable

namespace Json

/-- The fields of a record by name: each named field at most once, and its value if it is there. -/
def fieldNamed? (name : Text) (fields : List (Text × Json)) : Option (Option Json) :=
  match fields.filter fun f => f.1 = name with
  | [] => some none
  | [f] => some (some f.2)
  | _ => none

/--
The values of the named fields of a record, in the order of the names.

A record is an object in which no named field comes twice, or an array of exactly these values. An
object may leave fields out, and may have others unless the record is `strict`.
-/
def recordFields? (strict : Bool) (names : List Text) : Json → Option (List (Option Json))
  | .obj fields =>
    if strict && fields.any fun f => !names.contains f.1 then none
    else names.mapM fun name => fieldNamed? name fields
  | .arr items => if items.length = names.length then some (items.map some) else none
  | _ => none

/-- The text of a string. -/
def text? : Json → Option Text
  | .str s => some s
  | _ => none

/-- A field that may be left out or null. -/
def optional? {α : Type} (read? : Json → Option α) : Option Json → Option (Option α)
  | none | some .null => some none
  | some v => (read? v).map some

/-- A name of an enumeration: a string, or an object whose only field has that name and is null. -/
def named? {α : Type} (ofName? : Text → Option α) : Json → Option α
  | .str s => ofName? s
  | .obj [(s, .null)] => ofName? s
  | _ => none

/-- The object of the fields that are there. -/
def record (fields : List (Text × Option Json)) : Json :=
  .obj (fields.filterMap fun f => f.2.map (f.1, ·))

end Json

end CoinAddress

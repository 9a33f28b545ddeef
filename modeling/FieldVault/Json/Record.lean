/-
Records in JSON.

A record with named fields is written as an object. It may also be read from an array that lists
the fields in order, with fields left out at the end. In an object names that are not fields are
passed over; a field that occurs twice, or any name without a text, spoils the record.
-/
import FieldVault.Json

set_option autoImplicit false

namespace FieldVault.Json

/-- The value of a field among the members of an object, if it occurs; refused if it does twice. -/
def fieldOf? (members : List (Option String × Json)) (name : String) : Option (Option Json) :=
  match members.filter (·.1 = some name) with
  | [] => some none
  | [member] => some (some member.2)
  | _ => none

/-- The values of the named fields of a record, in the order of the names. -/
def fields? (names : List String) : Json → Option (List (Option Json))
  | object members =>
    if members.all (·.1.isSome) then names.mapM (fieldOf? members) else none
  | array items =>
    if items.length ≤ names.length then
      some (items.map some ++ List.replicate (names.length - items.length) none)
    else none
  | _ => none

/-- The text of a string. -/
def asText? : Json → Option String
  | string s => s
  | _ => none

/-- The truth value. -/
def asBool? : Json → Option Bool
  | bool b => some b
  | _ => none

/-- The items of an array. -/
def asItems? : Json → Option (List Json)
  | array items => some items
  | _ => none

/-- A text, or none for null. -/
def asOptionalText? : Json → Option (Option String)
  | null => some none
  | string (some s) => some (some s)
  | _ => none

/-- The members of an object whose names all have a text. -/
def asMembers? : Json → Option (List (String × Json))
  | object members => members.mapM fun m => m.1.map (·, m.2)
  | _ => none

/-- A field that may be left out. -/
def orDefault {α : Type} (value : Option Json) (default : α) (read : Json → Option α) : Option α :=
  match value with
  | some j => read j
  | none => some default

end FieldVault.Json

/-
JSON values.

A number is kept as it was written, since nothing here computes with one. A string is a text, with
one exception: escapes can write half of a surrogate pair, which stands for no character. Such a
string is JSON all the same and may stand where nobody reads it, so it is a value of its own, a
string without a text. The members of an object keep their order, and a name may occur twice.
-/

set_option autoImplicit false

namespace FieldVault

/-- A JSON value. -/
inductive Json where
  | null
  | bool (value : Bool)
  | number (written : String)
  /-- A string, and its text if it has one. -/
  | string (text : Option String)
  | array (items : List Json)
  | object (members : List (Option String × Json))

namespace Json

/-- A string with a text. -/
def text (s : String) : Json := .string (some s)

/-- A natural number. -/
def nat (n : Nat) : Json := .number (toString n)

/-- An object with the given members. -/
def record (members : List (String × Json)) : Json :=
  .object (members.map fun m => (some m.1, m.2))

/-- A text, or null. -/
def optional (s : Option String) : Json :=
  match s with
  | some s => text s
  | none => null

end Json

end FieldVault

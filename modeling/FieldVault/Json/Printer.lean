/-
JSON text.

In a string only the quote, the backslash and the control characters below U+0020 are escaped, the
five that have a short escape by it and the others by their number in lower-case digits. All else
is written as it is. A value is written either without any space, or with each item and member on a
line of its own, two spaces deeper than what holds it; empty arrays and objects stay on one line.
-/
import FieldVault.Bytes.Hex
import FieldVault.Json

set_option autoImplicit false

namespace FieldVault.Json

/-! ## Strings -/

/-- How a character is written within a string. -/
def escape (c : Char) : List Char :=
  if c = '"' then ['\\', '"']
  else if c = '\\' then ['\\', '\\']
  else if c.toNat = 8 then ['\\', 'b']
  else if c.toNat = 9 then ['\\', 't']
  else if c.toNat = 10 then ['\\', 'n']
  else if c.toNat = 12 then ['\\', 'f']
  else if c.toNat = 13 then ['\\', 'r']
  else if c.toNat < 0x20 then
    ['\\', 'u', '0', '0', Hex.digit (c.toNat / 16), Hex.digit (c.toNat % 16)]
  else [c]

/-- A string within its quotes. -/
def quote (cs : List Char) : List Char := '"' :: cs.flatMap escape ++ ['"']

/-- A string; one without a text is written as half a pair. -/
def quoteText (s : Option String) : List Char :=
  match s with
  | some s => quote s.toList
  | none => "\"\\ud800\"".toList

/-- The values that hold no others. -/
def printLeaf : Json → List Char
  | bool true => "true".toList
  | bool false => "false".toList
  | number written => written.toList
  | string s => quoteText s
  | _ => "null".toList

/-! ## Without space -/

mutual

/-- A value without any space. -/
def compactChars : Json → List Char
  | array items => '[' :: compactItems items
  | object members => '{' :: compactMembers members
  | leaf => printLeaf leaf

/-- The items of an array and its closing bracket. -/
def compactItems : List Json → List Char
  | [] => [']']
  | [item] => compactChars item ++ [']']
  | item :: items => compactChars item ++ ',' :: compactItems items

/-- The members of an object and its closing brace. -/
def compactMembers : List (Option String × Json) → List Char
  | [] => ['}']
  | [(name, value)] => quoteText name ++ ':' :: compactChars value ++ ['}']
  | (name, value) :: members =>
    quoteText name ++ ':' :: compactChars value ++ ',' :: compactMembers members

end

/-- The text of a value without any space. -/
def compact (j : Json) : String := String.ofList (compactChars j)

/-! ## On lines -/

/-- A new line at a depth. -/
def newLine (depth : Nat) : List Char := '\n' :: List.replicate (2 * depth) ' '

mutual

/-- A value at a depth. -/
def prettyChars (depth : Nat) : Json → List Char
  | array [] => ['[', ']']
  | array (item :: items) => '[' :: prettyItems depth (item :: items)
  | object [] => ['{', '}']
  | object (member :: members) => '{' :: prettyMembers depth (member :: members)
  | leaf => printLeaf leaf

/-- The items of an array at a depth, each on its line, and the closing bracket. -/
def prettyItems (depth : Nat) : List Json → List Char
  | [] => [']']
  | [item] => newLine (depth + 1) ++ prettyChars (depth + 1) item ++ newLine depth ++ [']']
  | item :: items =>
    newLine (depth + 1) ++ prettyChars (depth + 1) item ++ ',' :: prettyItems depth items

/-- The members of an object at a depth, each on its line, and the closing brace. -/
def prettyMembers (depth : Nat) : List (Option String × Json) → List Char
  | [] => ['}']
  | [(name, value)] =>
    newLine (depth + 1) ++ quoteText name ++ ':' :: ' ' :: prettyChars (depth + 1) value ++
      newLine depth ++ ['}']
  | (name, value) :: members =>
    newLine (depth + 1) ++ quoteText name ++ ':' :: ' ' :: prettyChars (depth + 1) value ++
      ',' :: prettyMembers depth members

end

/-- The text of a value on lines. -/
def pretty (j : Json) : String := String.ofList (prettyChars 0 j)

end FieldVault.Json

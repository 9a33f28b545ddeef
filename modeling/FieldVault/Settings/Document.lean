/-
Flat TOML documents: what a settings file can hold.

A settings file is a TOML 1.0 document in which every key stands alone on the left of its value and
every value is a string or a truth value. TOML has more (numbers, dates, arrays, tables, dotted
keys), but none of it can be a setting, so a document that uses any of it is refused as a whole,
and this reader need not tell a wrong value from a malformed one.

Strings come in four kinds: between double quotes with escapes or between single quotes without, and
each of the two on one line or, between triple quotes, on several. A triple-quoted string loses a
line break right after its opening quotes, and may have up to two quotes of its own right before
its closing ones.
-/
import FieldVault.Bytes.Hex

set_option autoImplicit false

namespace FieldVault.Settings

/-- The value of a setting. -/
inductive Value where
  | text (s : String)
  | flag (b : Bool)
deriving DecidableEq

namespace Document

/-! ## Space, comments, ends of lines -/

/-- A space or a tab. -/
def isSpace (c : Char) : Bool := c = ' ' || c = '\t'

/-- Drops spaces and tabs. -/
def skipSpace (cs : List Char) : List Char := cs.dropWhile isSpace

/-- A character that may stand in a comment or, quotes and backslash aside, in a string: a tab, or
anything but a control character. -/
def isPlain (c : Char) : Bool := c = '\t' || (0x20 ≤ c.toNat && c.toNat ≠ 0x7F)

/-- Reads a line break. -/
def lineBreak? : List Char → Option (List Char)
  | '\n' :: rest => some rest
  | '\r' :: '\n' :: rest => some rest
  | _ => none

/-- Reads the end of a line: a line break, or the end of the document. -/
def lineEnd? : List Char → Option (List Char)
  | [] => some []
  | cs => lineBreak? cs

/-- Reads what may follow a value on its line. -/
def restOfLine? (cs : List Char) : Option (List Char) :=
  match skipSpace cs with
  | '#' :: rest => lineEnd? (rest.dropWhile isPlain)
  | cs => lineEnd? cs

/-! ## Strings on one line -/

/-- The character that so many hexadecimal digits write. -/
def scalar? (digits : List Char) : Option Char := do
  let n ← Hex.number? digits
  if n.isValidChar then some (Char.ofNat n) else none

/-- The character that a short escape writes. -/
def unescape? (c : Char) : Option Char :=
  if c = 'b' then some (Char.ofNat 8)
  else if c = 't' then some (Char.ofNat 9)
  else if c = 'n' then some (Char.ofNat 10)
  else if c = 'f' then some (Char.ofNat 12)
  else if c = 'r' then some (Char.ofNat 13)
  else if c = '"' ∨ c = '\\' then some c
  else none

/-- Puts a character in front of a string that has been read. -/
def push (c : Char) (read : List Char × List Char) : List Char × List Char := (c :: read.1, read.2)

/-- Reads a double-quoted string after its opening quote. -/
def basic? : List Char → Option (List Char × List Char)
  | [] => none
  | '"' :: rest => some ([], rest)
  | '\\' :: 'u' :: a :: b :: c :: d :: rest => do
    return push (← scalar? [a, b, c, d]) (← basic? rest)
  | '\\' :: 'U' :: a :: b :: c :: d :: e :: f :: g :: h :: rest => do
    return push (← scalar? [a, b, c, d, e, f, g, h]) (← basic? rest)
  | '\\' :: e :: rest => do
    return push (← unescape? e) (← basic? rest)
  | c :: rest => if c ≠ '\\' ∧ isPlain c then (basic? rest).map (push c) else none

/-- Reads a single-quoted string after its opening quote. -/
def literal? : List Char → Option (List Char × List Char)
  | [] => none
  | '\'' :: rest => some ([], rest)
  | c :: rest => if isPlain c then (literal? rest).map (push c) else none

/-! ## Strings on several lines -/

/-- Drops spaces, tabs and line breaks. -/
def skipLines : List Char → List Char
  | '\r' :: '\n' :: rest => skipLines rest
  | c :: rest => if isSpace c ∨ c = '\n' then skipLines rest else c :: rest
  | [] => []

/-- Drops one line break, if there is one. -/
def dropLineBreak (cs : List Char) : List Char := (lineBreak? cs).getD cs

/-- A backslash at the end of a line joins it with the next text; here the backslash has been read.
Answers what follows the join. -/
def joined? (cs : List Char) : Option (List Char) :=
  (lineBreak? (skipSpace cs)).map skipLines

/-- Reads quotes within a triple-quoted string, of which there are `count`. Up to two are part of
the string, `none` being the answer; three to five close it, all but the last three being part of
it; more close it too, and leave some over. -/
def closing? (quote : Char) (count : Nat) (rest : List Char) : Option (List Char × List Char) :=
  if count < 3 then none
  else some (List.replicate (min (count - 3) 2) quote, List.replicate (count - 5) quote ++ rest)

/-- Reads a triple-quoted string with escapes after its opening quotes. -/
def basicLines? : (steps : Nat) → List Char → Option (List Char × List Char)
  | 0, _ => none
  | steps + 1, cs =>
    match cs with
    | [] => none
    | '"' :: _ =>
      let quotes := cs.takeWhile (· = '"')
      let rest := cs.dropWhile (· = '"')
      match closing? '"' quotes.length rest with
      | some closed => some closed
      | none => (basicLines? steps rest).map fun (s, rest) => (quotes ++ s, rest)
    | '\\' :: more =>
      match joined? more with
      | some rest => basicLines? steps rest
      | none =>
        match more with
        | 'u' :: a :: b :: c :: d :: rest => do
          return push (← scalar? [a, b, c, d]) (← basicLines? steps rest)
        | 'U' :: a :: b :: c :: d :: e :: f :: g :: h :: rest => do
          return push (← scalar? [a, b, c, d, e, f, g, h]) (← basicLines? steps rest)
        | e :: rest => do
          return push (← unescape? e) (← basicLines? steps rest)
        | [] => none
    | c :: more =>
      match lineBreak? cs with
      | some rest => (basicLines? steps rest).map (push '\n')
      | none => if isPlain c then (basicLines? steps more).map (push c) else none

/-- Reads a triple-quoted string without escapes after its opening quotes. -/
def literalLines? : (steps : Nat) → List Char → Option (List Char × List Char)
  | 0, _ => none
  | steps + 1, cs =>
    match cs with
    | [] => none
    | '\'' :: _ =>
      let quotes := cs.takeWhile (· = '\'')
      let rest := cs.dropWhile (· = '\'')
      match closing? '\'' quotes.length rest with
      | some closed => some closed
      | none => (literalLines? steps rest).map fun (s, rest) => (quotes ++ s, rest)
    | c :: more =>
      match lineBreak? cs with
      | some rest => (literalLines? steps rest).map (push '\n')
      | none => if isPlain c then (literalLines? steps more).map (push c) else none

/-! ## Keys and values -/

/-- Reads a string of any kind as a value. -/
def value? (cs : List Char) : Option (Value × List Char) :=
  let asText (read : Option (List Char × List Char)) : Option (Value × List Char) :=
    read.map fun (s, rest) => (.text (String.ofList s), rest)
  match cs with
  | '"' :: '"' :: '"' :: rest => asText (basicLines? (rest.length + 1) (dropLineBreak rest))
  | '"' :: rest => asText (basic? rest)
  | '\'' :: '\'' :: '\'' :: rest => asText (literalLines? (rest.length + 1) (dropLineBreak rest))
  | '\'' :: rest => asText (literal? rest)
  | 't' :: 'r' :: 'u' :: 'e' :: rest => some (.flag true, rest)
  | 'f' :: 'a' :: 'l' :: 's' :: 'e' :: rest => some (.flag false, rest)
  | _ => none

/-- A character of a key without quotes. -/
def isKeyChar (c : Char) : Bool := c.isAlphanum || c = '_' || c = '-'

/-- Reads a key, bare or quoted. -/
def key? : List Char → Option (List Char × List Char)
  | '"' :: rest => basic? rest
  | '\'' :: rest => literal? rest
  | cs =>
    match cs.takeWhile isKeyChar with
    | [] => none
    | name => some (name, cs.dropWhile isKeyChar)

/-- Reads a key and its value up to the end of the line. -/
def setting? (cs : List Char) : Option ((String × Value) × List Char) := do
  let (name, cs) ← key? cs
  match skipSpace cs with
  | '=' :: rest => do
    let (value, rest) ← value? (skipSpace rest)
    let rest ← restOfLine? rest
    return ((String.ofList name, value), rest)
  | _ => none

/-- Reads the lines of a document. -/
def lines? : (steps : Nat) → List Char → Option (List (String × Value))
  | 0, _ => none
  | steps + 1, cs =>
    match skipSpace cs with
    | [] => some []
    | '#' :: rest => restOfLine? ('#' :: rest) >>= lines? steps
    | cs =>
      match lineBreak? cs with
      | some rest => lines? steps rest
      | none => do
        let (setting, rest) ← setting? cs
        return setting :: (← lines? steps rest)

/-- Drops a byte order mark. -/
def dropMark : List Char → List Char
  | '\uFEFF' :: rest => rest
  | cs => cs

/-- The settings of a document, in order. -/
def parse? (s : String) : Option (List (String × Value)) :=
  let cs := dropMark s.toList
  lines? (cs.length + 1) cs

end Document

end FieldVault.Settings

/-
The words of a command, sorted into options and operands.

An option is named by a word after two hyphens or by a letter after one. Its value stands behind an
equals sign, right behind the letter, or in the next word; a value in the next word must not start
with a hyphen, unless it is nothing but a hyphen. After two hyphens alone every word is an operand.

Words are read from left to right, and the first that cannot be right, or that asks for help,
settles the matter. What can only be told at the end (an option or operand that is missing, two
options that exclude each other) is left to the command.
-/

set_option autoImplicit false

namespace FieldVault.CommandLine

/-- What an option takes. -/
inductive Takes where
  | nothing
  | text
  /-- A path, which is not empty. -/
  | path
deriving DecidableEq

/-- An option that a command understands. -/
structure Parameter where
  name : String
  letter : Option Char := none
  takes : Takes
  /-- The option may be given more than once. -/
  repeatable : Bool := false
deriving DecidableEq

/-- Why words are no command. -/
inductive Refusal where
  /-- Help is asked for. -/
  | help
  /-- The words make no sense. -/
  | misuse
deriving DecidableEq

/-- Options with their values, and operands, in the order given. -/
structure Arguments where
  options : List (String × String) := []
  operands : List String := []
deriving DecidableEq

namespace Arguments

/-! ## What was given -/

/-- The values of an option. -/
def values (a : Arguments) (name : String) : List String :=
  (a.options.filter (·.1 = name)).map (·.2)

/-- The value of an option, if it was given. -/
def value? (a : Arguments) (name : String) : Option String := (a.values name).head?

/-- The option was given. -/
def has (a : Arguments) (name : String) : Bool := (a.value? name).isSome

/-! ## Reading words -/

/-- The value suits what the option takes. -/
def suits (takes : Takes) (value : String) : Bool := takes ≠ .path || value ≠ ""

/-- Adds an option with its value. -/
def addOption (a : Arguments) (p : Parameter) (value : String) : Except Refusal Arguments :=
  if suits p.takes value ∧ (p.repeatable ∨ !a.has p.name) then
    .ok { a with options := a.options ++ [(p.name, value)] }
  else .error .misuse

/-- Adds operands, of which there can be only so many. -/
def addOperands (most : Nat) (a : Arguments) (words : List String) : Except Refusal Arguments :=
  if a.operands.length + words.length ≤ most then
    .ok { a with operands := a.operands ++ words }
  else .error .misuse

/-- The name of the option that asks for help. -/
def helpName : List Char := "help".toList

/-- The letter that asks for help. -/
def helpLetter : Char := 'h'

/-- A word names an option: it starts with a hyphen and goes on. -/
def isOption (word : String) : Bool :=
  match word.toList with
  | '-' :: _ :: _ => true
  | _ => false

/-- The option a word names, and the value in the word, if there is one. -/
def named? (parameters : List Parameter) (word : List Char) :
    Except Refusal (Parameter × Option (List Char)) :=
  let find (p : Parameter → Bool) (value : Option (List Char)) :=
    match parameters.find? p with
    | some p => .ok (p, value)
    | none => .error .misuse
  match word with
  | '-' :: '-' :: word =>
    let name := word.takeWhile (· ≠ '=')
    let value := (word.dropWhile (· ≠ '=')).tail?
    if name = helpName then .error (if value = none then .help else .misuse)
    else find (·.name.toList = name) value
  | '-' :: letter :: value =>
    if letter = helpLetter then .error .help
    else find (·.letter = some letter) <|
      match value with
      | [] => none
      | '=' :: value => some value
      | value => some value
  | _ => .error .misuse

/-- Reads words, adding what they say to the arguments so far. -/
def read (parameters : List Parameter) (most : Nat) :
    (words : List String) → Arguments → Except Refusal Arguments
  | [], a => .ok a
  | word :: words, a =>
    if word = "--" then a.addOperands most words
    else if isOption word then
      match named? parameters word.toList with
      | .error refusal => .error refusal
      | .ok (p, some value) =>
        if p.takes = .nothing then .error .misuse
        else a.addOption p (String.ofList value) >>= read parameters most words
      | .ok (p, none) =>
        if p.takes = .nothing then a.addOption p "" >>= read parameters most words
        else
          match words with
          | [] => .error .misuse
          | value :: words =>
            if isOption value then .error .misuse
            else a.addOption p value >>= read parameters most words
    else a.addOperands most [word] >>= read parameters most words

end Arguments

end FieldVault.CommandLine

/-
Paths: names between slashes, and what can be wrong with following them.

A path is walked name by name, so what it says about its last name is kept apart from the names
before it: those must lead through directories, while the last one may stand for anything, or for
something still to be made. Slashes in a row count as one. A slash at the end is part of what a
path says, for only a directory may be meant then.
-/
set_option autoImplicit false

namespace FieldVault.CommandLine

/-- Why a path cannot be followed, or not be used as asked. -/
inductive PathError where
  /-- A path leads through something that is not there, or to it. -/
  | notFound
  /-- Something is to be made that is there. -/
  | alreadyThere
  /-- A path leads through a file as if it were a directory. -/
  | notADirectory
  /-- A directory is taken for a file. -/
  | isADirectory
  /-- A name, or the whole path, is longer than operating systems take. -/
  | tooLong
deriving DecidableEq

/-- The wording and the number that operating systems have for an error. -/
def PathError.message : PathError → String
  | .notFound => "No such file or directory (os error 2)"
  | .alreadyThere => "File exists (os error 17)"
  | .notADirectory => "Not a directory (os error 20)"
  | .isADirectory => "Is a directory (os error 21)"
  | .tooLong => "File name too long (os error 36)"

/-- A path, taken apart. -/
structure Path where
  /-- The walk starts at the root, not in the working directory. -/
  absolute : Bool
  /-- The names that lead to the directory of the last one. -/
  through : List String
  /-- The last name. -/
  last : String
  /-- A slash follows the last name. -/
  closed : Bool
deriving DecidableEq

namespace Path

/-- The name a directory has for itself. -/
def self : String := "."

/-- The name a directory has for the one above it. -/
def above : String := ".."

/-- The most bytes of a name. -/
def maxNameSize : Nat := 255

/-- The most bytes of a path. -/
def maxSize : Nat := 4095

/-- Splits at slashes. -/
def split : List Char → List (List Char)
  | [] => [[]]
  | '/' :: cs => [] :: split cs
  | c :: cs =>
    match split cs with
    | part :: parts => (c :: part) :: parts
    | [] => [[c]]

/-- Takes a path apart. One of slashes alone leads to the root; one without a character leads
nowhere. -/
def parse (text : String) : Except PathError Path :=
  let cs := text.toList
  let names := ((split cs).filter (· ≠ [])).map String.ofList
  if cs = [] then .error .notFound
  else if maxSize < text.utf8ByteSize then .error .tooLong
  else .ok {
    absolute := cs.head? = some '/'
    through := names.dropLast
    last := names.getLast?.getD self
    closed := cs.getLast? = some '/' }

/-- The last name is one that any directory knows by itself, so that there is nothing to make. -/
def endsInDots (p : Path) : Bool := p.last = self || p.last = above

end Path

end FieldVault.CommandLine

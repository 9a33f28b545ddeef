/-
How the program tells that a command failed.

A failure has a text and causes, the nearest first. Each layer may put a text of its own in front,
and what was the text becomes the nearest cause. A single cause is indented, several are numbered
from zero; further lines of a cause are indented as deep as its first.
-/
import FieldVault.Error

set_option autoImplicit false

namespace FieldVault.CommandLine

/-- A text, and what lies behind it. -/
structure Failure where
  text : String
  causes : List String := []
deriving DecidableEq

namespace Failure

/-- The failure of an operation. -/
def ofError (e : Error) : Failure := ⟨e.message, e.causes⟩

/-- The failure to get a key. -/
def ofKeyError (e : KeyError) : Failure := ⟨e.message, e.cause?.toList⟩

/-- Tells in which undertaking a failure came about. -/
def during (undertaking : String) (f : Failure) : Failure := ⟨undertaking, f.text :: f.causes⟩

/-- A text with something in front of its first line and of each further line. -/
def indent (first further : List Char) (text : String) : List Char :=
  first ++ text.toList.flatMap fun c => if c = '\n' then '\n' :: further else [c]

/-- A numbered cause. The number is set flush right in five columns. -/
def numbered (n : Nat) (cause : String) : List Char :=
  let digits := (toString n).toList
  indent (List.replicate (5 - digits.length) ' ' ++ digits ++ [':', ' ']) (List.replicate 7 ' ')
    cause

/-- The lines of the causes. -/
def causeLines : List String → List (List Char)
  | [cause] => [indent (List.replicate 4 ' ') (List.replicate 4 ' ') cause]
  | causes => causes.zipIdx.map fun (cause, n) => numbered n cause

/-- The wording of a failure with its causes. -/
def report (f : Failure) : String :=
  let causes :=
    if f.causes = [] then []
    else "\nCaused by:\n".toList ++ (causeLines f.causes).flatMap (· ++ ['\n'])
  "Error: " ++ f.text ++ "\n" ++ String.ofList causes

end Failure

end FieldVault.CommandLine

/-
The host: what the program asks of the machine it runs on.

A host offers the environment, randomness and files. The environment and randomness are values, for
they do not change while a command runs; the operations on files are actions of some monad. So the
program is one definition, for a real machine and for a directory kept in memory alike.
-/
import FieldVault.Bytes
import FieldVault.RecordId
import FieldVault.Supply
import FieldVault.Text.Utf8

set_option autoImplicit false

namespace FieldVault.CommandLine

/-- A machine. Operations on files answer with the machine's own words for a failure. -/
structure Host (m : Type → Type) where
  /-- The value of a variable. -/
  lookup : String → Option String
  /-- Initialisation vectors. -/
  ivs : Supply Block
  /-- Ids of new records. -/
  ids : Supply RecordId
  /-- A fresh secret. -/
  secret : String
  /-- There is a file at a path. -/
  isFile : String → m Bool
  /-- What the file at a path holds. -/
  read : String → m (Except String Bytes)
  /-- Makes a file hold a text. -/
  write : String → String → m (Except String Unit)
  /-- Makes a new file that only its owner may read; refused if there is one already. -/
  create : String → String → m (Except String Unit)

/-- The text of bytes that a file holds. -/
def textOfFile (content : Except String Bytes) : Except String String :=
  match content with
  | .error reason => .error reason
  | .ok bs =>
    match Utf8.decode bs with
    | .error _ => .error "stream did not contain valid UTF-8"
    | .ok text => .ok text

end FieldVault.CommandLine

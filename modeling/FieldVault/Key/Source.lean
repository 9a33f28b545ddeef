/-
Where key configuration comes from.

A source is asked again on every attempt to resolve a key, and may answer differently each time: a
file is put in place, a service comes back. So a source is a sequence of answers, one for each
attempt. An answer holds the secret that was configured outright and the seed to fall back on; each
may be absent, and asking for each may fail.
-/
import FieldVault.Error
import FieldVault.Text.Blank
import FieldVault.Text.Utf8

set_option autoImplicit false

namespace FieldVault

/-- What a source answers on one attempt. -/
structure KeyAnswer where
  /-- The secret configured outright. -/
  secret : Except KeyError (Option String)
  /-- The seed that a secret may be derived from. -/
  seed : Except KeyError (Option String)

/-- What a source is asked for. -/
inductive KeyQuestion where
  | secret
  | seed
deriving DecidableEq

/-- The answer to one question. -/
def KeyAnswer.to (answer : KeyAnswer) : KeyQuestion → Except KeyError (Option String)
  | .secret => answer.secret
  | .seed => answer.seed

/-- The answers of a source to the first, second, third attempt and so on. -/
abbrev KeySource := Nat → KeyAnswer

namespace KeySource

/-- A source that always answers alike. -/
def constant (answer : KeyAnswer) : KeySource := fun _ => answer

/-- Configuration handed over by the host, blank values included. -/
def fixed (secret seed : Option String) : KeySource := constant ⟨.ok secret, .ok seed⟩

/-- The variable that holds the secret. -/
def secretVariable : String := "PII_ENCKEY"

/-- The variable that holds the seed. -/
def seedVariable : String := "PII_DB_URL"

/-- Configuration in environment variables, a blank one counting as unset. -/
def environment (lookup : String → Option String) : KeySource :=
  constant ⟨.ok (Text.nonBlank (lookup secretVariable)),
    .ok (Text.nonBlank (lookup seedVariable))⟩

/-- A secret kept in a file, white space around it ignored; `read` is what reading the file gives on
each attempt. An empty file holds no secret. -/
def file (read : Nat → Except String Bytes) (seed : Option String) : KeySource := fun attempt =>
  let secret : Except KeyError (Option String) :=
    match read attempt with
    | .error reason => .error (.unreadable reason)
    | .ok bs =>
      match Utf8.decode bs with
      | .error _ => .error (.unreadable "stream did not contain valid UTF-8")
      | .ok text => .ok (some (Text.trim text) |>.filter (· ≠ ""))
  ⟨secret, .ok seed⟩

/-- A list of answers, the last of which repeats; none at all is an answer without configuration. -/
def script (answers : List KeyAnswer) : KeySource := fun attempt =>
  match answers[attempt]? with
  | some answer => answer
  | none => answers.getLastD ⟨.ok none, .ok none⟩

/-- The failure to set up a file source over a file that is not there. -/
def noSuchFile (path : String) : KeyError := .unavailable ("key file does not exist: " ++ path)

end KeySource

end FieldVault

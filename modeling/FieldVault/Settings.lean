/-
Settings: the secret, the seed to fall back on, and strictness.

Settings come from a file, from the environment, or from both, the environment having the last word
on each setting it has a value for. A blank text counts as no value, wherever it comes from, so no
setting is ever a blank text.
-/
import FieldVault.Error
import FieldVault.Key.Source
import FieldVault.Settings.Document

set_option autoImplicit false

namespace FieldVault

/-- What a deployment is configured with. -/
structure Settings where
  /-- The secret whose bytes are the key. -/
  encryptionKey : Option String := none
  /-- The seed a secret is derived from if there is none. -/
  databaseUrl : Option String := none
  /-- Reading a token that cannot be decrypted is a failure. -/
  strict : Bool := false
deriving DecidableEq

namespace Settings

/-- The text of a setting, given at most once, a blank one counting as none. -/
def textOf? (document : List (String × Value)) (name : String) : Option (Option String) :=
  match document.filter (·.1 = name) with
  | [] => some none
  | [(_, .text s)] => some (Text.nonBlank (some s))
  | _ => none

/-- The flag of a setting, given at most once, off if it is not given. -/
def flagOf? (document : List (String × Value)) (name : String) : Option Bool :=
  match document.filter (·.1 = name) with
  | [] => some false
  | [(_, .flag b)] => some b
  | _ => none

/-- The names of the settings in a file. -/
def names : List String := ["encryption_key", "database_url", "strict"]

/-- The settings of a document that holds nothing else. -/
def ofDocument? (document : List (String × Value)) : Option Settings := do
  if document.all fun setting => names.contains setting.1 then
    return {
      encryptionKey := ← textOf? document "encryption_key"
      databaseUrl := ← textOf? document "database_url"
      strict := ← flagOf? document "strict" }
  else none

/-- The settings that a text holds. The phrase for a text that holds none is how the account of
the fault begins; its place and what was expected there are not told. -/
def parse (text : String) : Except Error Settings :=
  match Document.parse? text >>= ofDocument? with
  | some settings => .ok settings
  | none => .error (.config "TOML parse error")

/-! ## The environment -/

/-- The variable that switches strictness on. -/
def strictVariable : String := "PII_STRICT"

/-- The words that mean yes. -/
def isYes (s : String) : Bool :=
  ["1", "true", "yes"].contains (String.ofList ((Text.trim s).toList.map Char.toLower))

/-- Lets the variables that have a value override the settings. -/
def override (s : Settings) (lookup : String → Option String) : Settings where
  encryptionKey := (Text.nonBlank (lookup KeySource.secretVariable)).or s.encryptionKey
  databaseUrl := (Text.nonBlank (lookup KeySource.seedVariable)).or s.databaseUrl
  strict := ((Text.nonBlank (lookup strictVariable)).map isYes).getD s.strict

/-- The settings of the environment alone. -/
def ofVariables (lookup : String → Option String) : Settings := override {} lookup

/-- The settings of a file, overridden by the environment. `content` is what reading the file gave;
the path is for the message. -/
def load (path : String) (content : Except String String) (lookup : String → Option String) :
    Except Error Settings :=
  match content with
  | .error reason => .error (.io reason)
  | .ok text =>
    match parse text with
    | .ok settings => .ok (settings.override lookup)
    | .error e => .error (.config (path ++ ": " ++ e.message))

/-- The source of the key that the settings describe. -/
def keySource (s : Settings) : KeySource := .fixed s.encryptionKey s.databaseUrl

end Settings

end FieldVault

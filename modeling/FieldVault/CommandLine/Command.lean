/-
The commands and what they are told.
-/
import FieldVault.CommandLine.Arguments

set_option autoImplicit false

namespace FieldVault.CommandLine

/-- Where the key comes from: a settings file and a key file, each in place of the environment. -/
structure KeyOptions where
  config : Option String
  keyFile : Option String
deriving DecidableEq

/-- What the program can be asked to do. -/
inductive Command where
  /-- Make a key file. -/
  | keygen (output : String)
  /-- Tell what kind of key is configured. -/
  | checkKey (key : KeyOptions)
  /-- Encrypt one value. -/
  | encrypt (value : String) (key : KeyOptions)
  /-- Decrypt one token. -/
  | decrypt (token : String) (key : KeyOptions)
  /-- Tell the lookup hash of a value. -/
  | hash (value : String)
  /-- Switch a tenant of a snapshot on or off, after some opt-ins. -/
  | migrate (snapshot : String) (tenant : String) (optIns : List String) (enable : Bool)
      (key : KeyOptions)
deriving DecidableEq

namespace Command

/-! ## Options -/

/-- The key file that is made unless another is named. -/
def defaultOutput : String := "./piiseal.key"

/-- The options that tell where the key comes from. -/
def keyParameters : List Parameter := [
  { name := "config", letter := some 'c', takes := .path },
  { name := "key-file", letter := some 'k', takes := .path }]

/-- The option of `keygen`. -/
def keygenParameters : List Parameter := [{ name := "output", letter := some 'o', takes := .path }]

/-- The options of `migrate`. -/
def migrateParameters : List Parameter := [
  { name := "snapshot", letter := some 's', takes := .path },
  { name := "tenant", letter := some 't', takes := .text },
  { name := "opt-in", takes := .text, repeatable := true },
  { name := "enable", takes := .nothing },
  { name := "disable", takes := .nothing }] ++ keyParameters

/-- Where the key comes from. -/
def keyOptions (a : Arguments) : KeyOptions := ⟨a.value? "config", a.value? "key-file"⟩

/-! ## Commands from words -/

/-- The names of the commands. -/
def names : List String := ["keygen", "check-key", "encrypt", "decrypt", "hash", "migrate"]

/-- The one operand of a command. -/
def operand (a : Arguments) : Except Refusal String :=
  match a.operands with
  | [value] => .ok value
  | _ => .error .misuse

/-- The migration that options ask for, which must tell the direction, and only one. -/
def migration (a : Arguments) : Except Refusal Command :=
  match a.value? "snapshot", a.value? "tenant" with
  | some snapshot, some tenant =>
    if a.has "enable" = a.has "disable" then .error .misuse
    else .ok (.migrate snapshot tenant (a.values "opt-in") (a.has "enable") (keyOptions a))
  | _, _ => .error .misuse

/-- The command of that name, told by these words. -/
def ofWords (name : String) (words : List String) : Except Refusal Command :=
  let read (parameters : List Parameter) (operands : Nat) : Except Refusal Arguments :=
    Arguments.read parameters operands words {}
  match name with
  | "keygen" => do
    return .keygen (((← read keygenParameters 0).value? "output").getD defaultOutput)
  | "check-key" => do return .checkKey (keyOptions (← read keyParameters 0))
  | "encrypt" => do
    let a ← read keyParameters 1
    return .encrypt (← operand a) (keyOptions a)
  | "decrypt" => do
    let a ← read keyParameters 1
    return .decrypt (← operand a) (keyOptions a)
  | "hash" => do return .hash (← operand (← read [] 1))
  | "migrate" => do migration (← read migrateParameters 0)
  | _ => .error .misuse

/-- The help that words after the command `help` ask for. -/
def helpOn : List String → Refusal
  | [] => .help
  | [name] => if names.contains name ∨ name = "help" then .help else .misuse
  | _ => .misuse

/-- The command that words make. -/
def parse : List String → Except Refusal Command
  | [] => .error .misuse
  | "help" :: words => .error (helpOn words)
  | word :: words =>
    if Arguments.isOption word then
      match Arguments.named? [] word.toList with
      | .error refusal => .error refusal
      | .ok _ => .error .misuse
    else ofWords word words

/-- What the program tells about itself. -/
def usage : String :=
  "Key management and migration of protected fields\n\n" ++
  "Commands:\n" ++
  "  keygen     Generate a new key file [-o FILE]\n" ++
  "  check-key  Resolve and validate the configured key\n" ++
  "  encrypt    Encrypt a single value: VALUE\n" ++
  "  decrypt    Decrypt a single token: TOKEN\n" ++
  "  hash       Print the lookup hash of a value: VALUE\n" ++
  "  migrate    Enable or disable encryption for a tenant in a JSON snapshot:\n" ++
  "             -s FILE -t TENANT [--opt-in FIELD]... (--enable | --disable)\n\n" ++
  "All but keygen and hash take -c FILE (TOML settings) and -k FILE (the secret).\n"

end Command

end FieldVault.CommandLine

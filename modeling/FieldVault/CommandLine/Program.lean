/-
What each command does.

A command works on a host and ends with the lines it prints, or with a failure. A migration may
print its report and fail all the same: owners that failed verification are left as they were, the
others are migrated and the snapshot is written anew.

Of the standard error only the report of the failure is kept. The notices that a cipher puts in its
journal on the way, which a deployment may log there as well, are left out; and where a text cannot
be read as settings or as a snapshot, a fixed phrase stands for the reader's account of the fault,
its place and what was expected there.
-/
import FieldVault.CommandLine.Command
import FieldVault.CommandLine.Failure
import FieldVault.CommandLine.Host
import FieldVault.Migration
import FieldVault.Settings
import FieldVault.Snapshot

set_option autoImplicit false

namespace FieldVault.CommandLine

/-- How a command ended: lines for the standard output, and a failure that does not take them
back. -/
structure Answer where
  lines : List String
  failure : Option Failure := none

/-- How the program ended. -/
structure Outcome where
  /-- The exit status: 0 for success, 1 for a failure, 2 for words that make no command. -/
  status : Nat
  /-- The standard output. -/
  output : String
  /-- The failure as reported on the standard error, without the lines that are logged there. -/
  complaint : String

section Commands

variable {m : Type → Type} [Monad m]

/-- A command at work: an action on the host that may fail. -/
abbrev Run (m : Type → Type) := ExceptT Failure m

/-! ## The key -/

/-- The settings: those of the settings file, if there is one, under those of the environment. -/
def loadSettings (host : Host m) (key : KeyOptions) : Run m Settings := do
  match key.config with
  | none => return .ofVariables host.lookup
  | some path =>
    match Settings.load path (textOfFile (← host.read path)) host.lookup with
    | .ok settings => return settings
    | .error e => throw (.ofError e)

/-- The source of the key. A key file stands in for the secret of the settings, not for the seed. -/
def keySource (host : Host m) (key : KeyOptions) : Run m KeySource := do
  let settings ← loadSettings host key
  match key.keyFile with
  | none => return settings.keySource
  | some path =>
    if ← host.isFile path then
      let content ← host.read path
      return .file (fun _ => content) settings.databaseUrl
    else throw (.ofKeyError (KeySource.noSuchFile path))

/-- A cipher with that key. -/
def cipher (host : Host m) (key : KeyOptions) : Run m FieldCipher := do
  return { keys := { source := ← keySource host key }, ivs := host.ivs }

/-! ## Commands on single values -/

/-- Makes a key file. -/
def keygen (host : Host m) (output : String) : Run m Answer := do
  match ← host.create output (host.secret ++ "\n") with
  | .ok _ => return ⟨["Key written to: " ++ output], none⟩
  | .error reason => throw ((Failure.ofKeyError (.unreadable reason)).during ("writing " ++ output))

/-- Tells what kind of key is configured. -/
def checkKey (host : Host m) (key : KeyOptions) : Run m Answer := do
  match (← cipher host key).resolve.1 with
  | .ok key => return ⟨["Key OK: AES-" ++ toString key.bits], none⟩
  | .error e => throw ((Failure.ofKeyError e).during "resolving encryption key")

/-- Prints what an action of the cipher makes of a value. -/
def printValue (c : FieldCipher) (action : FieldCipher.Action String) : Run m Answer :=
  match action c with
  | .ok value _ => return ⟨[value], none⟩
  | .error e _ => throw (.ofError e)

/-- Decrypts a token; a value that is not marked as one is refused. -/
def decryptToken (host : Host m) (token : String) (key : KeyOptions) : Run m Answer := do
  let c ← cipher host key
  if Token.isMarked token then printValue c (FieldCipher.decrypt token)
  else throw ⟨"not an encrypted value: expected the " ++ String.ofList Token.mark ++ " prefix", []⟩

/-! ## Migration -/

/-- The lines of a report. -/
def reportLines (r : Report) : List String := [
  "Owners visited:           " ++ toString r.ownersVisited,
  "Fields changed:           " ++ toString r.fieldsChanged,
  "Service accounts skipped: " ++ toString r.serviceAccountsSkipped,
  "Already hashed, skipped:  " ++ toString r.hashedSkipped] ++
  r.failures.map fun field => "FAILED: " ++ field.failureText

/-- The answer to a migration: its report, and a failure if any owner failed verification. -/
def migrationAnswer (r : Report) : Answer :=
  ⟨reportLines r,
    if r.failures = [] then none
    else some ⟨toString r.failures.length ++
      " owner(s) failed verification and were left unchanged", []⟩⟩

/-- The store of a snapshot file. The phrase for a text that holds none stands for all that the
reader of such a text would say about it. -/
def loadSnapshot (host : Host m) (path : String) : Run m Store := do
  match textOfFile (← host.read path) with
  | .error reason => throw ⟨"reading " ++ path, [reason]⟩
  | .ok text =>
    match Store.parse? text with
    | some store => return store
    | none => throw ⟨"parsing " ++ path, ["not a snapshot"]⟩

/-- Switches a tenant of a snapshot on or off and writes the snapshot anew. -/
def migrate (host : Host m) (path : String) (tenant : TenantId) (optIns : List FieldName)
    (enable : Bool) (key : KeyOptions) : Run m Answer := do
  let c ← cipher host key
  let store ← loadSnapshot host path
  let tenancy := optIns.foldl (fun t field => t.setOptIn tenant field true) Tenancy.none
  let vault : Vault := { cipher := c, store, tenancy, ids := host.ids }
  match Work.setTenantEncryption tenant enable vault with
  | .error e _ => throw (.ofError e)
  | .ok report vault =>
    match ← host.write path vault.store.toJson.pretty with
    | .ok _ => return migrationAnswer report
    | .error reason => throw ⟨"writing " ++ path, [reason]⟩

/-! ## The program -/

/-- Carries a command out. -/
def execute (host : Host m) : Command → Run m Answer
  | .keygen output => keygen host output
  | .checkKey key => checkKey host key
  | .encrypt value key => do printValue (← cipher host key) (FieldCipher.encrypt value)
  | .decrypt token key => decryptToken host token key
  | .hash value => return ⟨[LookupHash.of value], none⟩
  | .migrate snapshot tenant optIns enable key => migrate host snapshot tenant optIns enable key

/-- The outcome of a command. -/
def outcomeOf : Except Failure Answer → Outcome
  | .error failure => ⟨1, "", failure.report⟩
  | .ok answer =>
    let output := String.join (answer.lines.map (· ++ "\n"))
    match answer.failure with
    | none => ⟨0, output, ""⟩
    | some failure => ⟨1, output, failure.report⟩

/-- Runs the program on the words it was called with. -/
def run (host : Host m) (words : List String) : m Outcome :=
  match Command.parse words with
  | .error .help => return ⟨0, Command.usage, ""⟩
  | .error .misuse => return ⟨2, "", Command.usage⟩
  | .ok command => return outcomeOf (← (execute host command).run)

end Commands

end FieldVault.CommandLine

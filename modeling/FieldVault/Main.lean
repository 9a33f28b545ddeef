/-
The program on a real machine.
-/
import FieldVault.CommandLine.Program

set_option autoImplicit false

namespace FieldVault.CommandLine

/-- The machine's words for a failure. -/
def machineReason (e : IO.Error) : String :=
  match e with
  | .noFileOrDirectory _ code details => s!"{details} (os error {code})"
  | .alreadyExists _ code details => s!"{details} (os error {code})"
  | .permissionDenied _ code details => s!"{details} (os error {code})"
  | .inappropriateType _ code details => s!"{details} (os error {code})"
  | e => toString e

/-- Carries an action out and tells a failure in the machine's words. -/
def attemptAction {α : Type} (action : IO α) : IO (Except String α) := do
  try
    return .ok (← action)
  catch e => return .error (machineReason e)

/-- There is a file at a path, readable or not. -/
def machineIsFile (path : String) : IO Bool := do
  try
    discard (IO.FS.readBinFile path)
    return true
  catch e =>
    match e with
    | .permissionDenied .. => return true
    | _ => return false

/-- Makes a new file that only its owner may read. -/
def machineCreate (path text : String) : IO Unit := do
  let file ← IO.FS.Handle.mk path .writeNew
  IO.setAccessRights path { user := { read := true, write := true } }
  file.putStr text
  file.flush

/-- An endless sequence of blocks that a random seed decides. -/
def blocksOf (seed : Bytes) : Nat → Block := fun n =>
  (Block.ofList? ((Digest.sha1 (seed ++ (Block.ofNat n).toList)).take Block.size)).getD .zero

/-- The number that some bytes write, most significant first. -/
def numberOf (bs : Bytes) : Nat := bs.foldl (fun n b => 256 * n + b.toNat) 0

/-- Random bytes. -/
def randomBytes (count : Nat) : IO Bytes := do
  return (← IO.getRandomBytes count.toUSize).toList

/-- A random id, marked as one. -/
def randomId (block : Block) : RecordId :=
  let marked := block.toList.mapIdx fun i b =>
    if i = 6 then (b &&& 0x0F) ||| 0x40 else if i = 8 then (b &&& 0x3F) ||| 0x80 else b
  ⟨(Block.ofList? marked).getD block⟩

/-- The machine the program runs on. -/
def machine : IO (Host IO) := do
  let secret ← IO.getEnv KeySource.secretVariable
  let seed ← IO.getEnv KeySource.seedVariable
  let strict ← IO.getEnv Settings.strictVariable
  let lookup (name : String) : Option String :=
    if name = KeySource.secretVariable then secret
    else if name = KeySource.seedVariable then seed
    else if name = Settings.strictVariable then strict
    else none
  let ivSeed ← randomBytes 32
  let idSeed ← randomBytes 32
  let choices ← randomBytes (8 * Key.secretLength)
  return {
    lookup
    ivs := { item := blocksOf ivSeed }
    ids := { item := fun n => randomId (blocksOf idSeed n) }
    secret := Key.generateSecret fun n => numberOf ((choices.drop (8 * n)).take 8)
    isFile := machineIsFile
    read := fun path => attemptAction do return (← IO.FS.readBinFile path).toList
    write := fun path text => attemptAction (IO.FS.writeFile path text)
    create := fun path text => attemptAction (machineCreate path text) }

end FieldVault.CommandLine

/-- Runs the program on the words it was called with. -/
def main (words : List String) : IO UInt32 := do
  let out ← FieldVault.CommandLine.run (← FieldVault.CommandLine.machine) words
  IO.print out.output
  IO.eprint out.complaint
  return out.status.toUInt32

/-
A directory kept in memory, as a host for the program.

The directory has no subdirectories and stands for the working directory. Around it is a machine of
which little is known: there is a root with the usual directories in it, there is the null device,
and any directory has one above it. A path is walked from name to name, and the first one that does
not lead on decides the error.

Main statements: a file that was put in is there (`file?_put_self`), and a file that can be read at
a path is the one that is written at it (`write_of_find`).
-/
import FieldVault.CommandLine.Host
import FieldVault.CommandLine.Path

set_option autoImplicit false

namespace FieldVault.CommandLine

/-- A file with its content. -/
structure StoredFile where
  name : String
  content : Bytes
  /-- Only the owner may read the file. -/
  ownerOnly : Bool := false
deriving DecidableEq

/-- Files, no two of one name. -/
structure Directory where
  files : List StoredFile
deriving DecidableEq

namespace Directory

/-- The file of a name. -/
def file? (d : Directory) (name : String) : Option StoredFile := d.files.find? (·.name = name)

/-- Puts a file in, in place of one with the same name. -/
def put (d : Directory) (file : StoredFile) : Directory :=
  ⟨d.files.filter (·.name ≠ file.name) ++ [file]⟩

/-- A file that was put in is there. -/
@[simp] theorem file?_put_self (d : Directory) (file : StoredFile) :
    (d.put file).file? file.name = some file := by
  have h : ∀ x ∈ d.files.filter (·.name ≠ file.name), ¬ decide (x.name = file.name) = true := by
    intro x hx
    simpa using (List.mem_filter.1 hx).2
  unfold put file?
  rw [List.find?_append, List.find?_eq_none.2 h]
  simp

/-! ## The machine around it -/

/-- A directory that a path can lead to. -/
inductive Location where
  /-- The working directory. -/
  | working
  /-- A directory above it. -/
  | outer
  /-- The root. -/
  | root
  /-- One of the usual directories in the root. -/
  | usual (name : String)
deriving DecidableEq

/-- The names of the usual directories in the root. -/
def usualNames : List String :=
  ["bin", "boot", "dev", "etc", "home", "lib", "media", "mnt", "opt", "proc", "root", "run",
    "sbin", "srv", "sys", "tmp", "usr", "var"]

/-- The directory above one; the root is above itself. -/
def Location.above : Location → Location
  | .working => .outer
  | .outer => .outer
  | .root => .root
  | .usual _ => .root

/-- What a name stands for. -/
inductive Entry where
  | directory (location : Location)
  | file (file : StoredFile)
  /-- The null device: it reads as empty, and what is written to it is gone. -/
  | nullDevice
  /-- Nothing yet, in the working directory. -/
  | free (name : String)
  /-- Nothing that is known, elsewhere. -/
  | unknown
deriving DecidableEq

/-- What a name stands for in the directory at a location. -/
def entry (d : Directory) (location : Location) (name : String) : Except PathError Entry :=
  if name = Path.self then .ok (.directory location)
  else if name = Path.above then .ok (.directory location.above)
  else if Path.maxNameSize < name.utf8ByteSize then .error .tooLong
  else match location with
    | .working =>
      match d.file? name with
      | some file => .ok (.file file)
      | none => .ok (.free name)
    | .outer => .ok .unknown
    | .root => if name ∈ usualNames then .ok (.directory (.usual name)) else .ok .unknown
    | .usual parent => if parent = "dev" ∧ name = "null" then .ok .nullDevice else .ok .unknown

/-- The directory that an entry is. -/
def Entry.location : Entry → Except PathError Location
  | .directory location => .ok location
  | .file _ | .nullDevice => .error .notADirectory
  | .free _ | .unknown => .error .notFound

/-- Walks through directories. -/
def walk (d : Directory) : Location → List String → Except PathError Location
  | location, [] => .ok location
  | location, name :: names =>
    match d.entry location name with
    | .error e => .error e
    | .ok found =>
      match found.location with
      | .error e => .error e
      | .ok next => d.walk next names

/-- The directory of the last name of a path. -/
def parent (d : Directory) (p : Path) : Except PathError Location :=
  d.walk (if p.absolute then .root else .working) p.through

/-- What there is at a path. A slash at its end asks for a directory. -/
def find (d : Directory) (path : String) : Except PathError Entry := do
  let p ← Path.parse path
  let found ← d.entry (← d.parent p) p.last
  if p.closed then return .directory (← found.location) else return found

/-- What there is at a path where a file is to be. A slash at its end is refused before anything is
looked up, except after names that are of directories in any case. -/
def findForFile (d : Directory) (path : String) : Except PathError Entry := do
  let p ← Path.parse path
  let location ← d.parent p
  if p.closed ∧ !p.endsInDots then throw .isADirectory else d.entry location p.last

/-- A file is found in the same way for reading it and for writing it. -/
theorem findForFile_of_find {d : Directory} {path : String} {file : StoredFile}
    (h : d.find path = .ok (.file file)) : d.findForFile path = .ok (.file file) := by
  unfold find at h
  unfold findForFile
  cases hp : Path.parse path with
  | error e => simp [hp, bind, Except.bind] at h
  | ok p =>
    cases hl : d.parent p with
    | error e => simp [hp, hl, bind, Except.bind] at h
    | ok location =>
      cases he : d.entry location p.last with
      | error e => simp [hp, hl, he, bind, Except.bind] at h
      | ok found =>
        cases hc : p.closed with
        | false => simpa [hp, hl, he, hc, bind, Except.bind, pure, Except.pure] using h
        | true =>
          cases hf : found.location <;>
            simp [hp, hl, he, hc, hf, bind, Except.bind, pure, Except.pure] at h

/-! ## Operations -/

/-- What the file at a path holds. -/
def read (d : Directory) (path : String) : Except PathError Bytes :=
  match d.find path with
  | .error e => .error e
  | .ok (.file file) => .ok file.content
  | .ok .nullDevice => .ok []
  | .ok (.directory _) => .error .isADirectory
  | .ok (.free _) | .ok .unknown => .error .notFound

/-- There is a file at a path. -/
def isFile (d : Directory) (path : String) : Bool :=
  match d.find path with
  | .ok (.file _) => true
  | _ => false

/-- Makes a file hold a text. What is written outside the directory is not kept. -/
def write (d : Directory) (path text : String) : Except PathError Unit × Directory :=
  match d.findForFile path with
  | .error e => (.error e, d)
  | .ok (.directory _) => (.error .isADirectory, d)
  | .ok (.file file) => (.ok (), d.put { file with content := Utf8.encode text })
  | .ok (.free name) => (.ok (), d.put { name, content := Utf8.encode text })
  | .ok .nullDevice | .ok .unknown => (.ok (), d)

/-- A file that can be found at a path is the one that is written at it. -/
theorem write_of_find {d : Directory} {path : String} {file : StoredFile} (text : String)
    (h : d.find path = .ok (.file file)) :
    d.write path text = (.ok (), d.put { file with content := Utf8.encode text }) := by
  simp [write, findForFile_of_find h]

/-- Makes a new file that only its owner may read. -/
def create (d : Directory) (path text : String) : Except PathError Unit × Directory :=
  match d.findForFile path with
  | .error e => (.error e, d)
  | .ok (.directory _) | .ok (.file _) | .ok .nullDevice => (.error .alreadyThere, d)
  | .ok (.free name) =>
    (.ok (), d.put { name, content := Utf8.encode text, ownerOnly := true })
  | .ok .unknown => (.ok (), d)

/-- The directory as a host, in an environment and with a supply of randomness. -/
def host (lookup : String → Option String) (ivs : Supply Block) (ids : Supply RecordId)
    (secret : String) : Host (StateM Directory) where
  lookup := lookup
  ivs := ivs
  ids := ids
  secret := secret
  isFile path := fun d => (d.isFile path, d)
  read path := fun d => ((d.read path).mapError PathError.message, d)
  write path text := fun d =>
    let (result, d) := d.write path text
    (result.mapError PathError.message, d)
  create path text := fun d =>
    let (result, d) := d.create path text
    (result.mapError PathError.message, d)

end Directory

end FieldVault.CommandLine

/-
What a migration does to the file of its snapshot.

A call of the program that asks for a migration looks for its key and for the snapshot, migrates the
tenant in memory, and writes the whole snapshot anew. It writes at the very end, so what goes wrong
before leaves every file as it was; and there is little that can go wrong: the settings, the key
file, the snapshot, and the key, if it is asked for. All else ends with the file rewritten, and with
a failure only if owners failed verification.

Switching a tenant on in one call and off in another is the round trip of the tenant, with a parser
and a printer in the way. What one call prints, the other reads back as the same store; each has a
vault of its own, but the key is the same, and nothing else matters.
-/
import FieldVault.CommandLine.Program
import FieldVault.Proofs.CommandLine.Directory
import FieldVault.Proofs.Decryption.Keyless
import FieldVault.Proofs.Snapshot
import FieldVault.Proofs.Switching

set_option autoImplicit false

namespace FieldVault

open Vault

/-! ## Commands at work -/

namespace CommandLine

variable {α β : Type} {d d' : Directory}

theorem run_bind (first : Run (StateM Directory) α) (next : α → Run (StateM Directory) β)
    (d : Directory) : (first >>= next).run d =
      (ExceptT.bindCont next (first.run d).1 : StateM Directory _) (first.run d).2 :=
  rfl

theorem run_bind_of_answer {first : Run (StateM Directory) α} {a : α}
    (h : first.run d = (.ok a, d')) (next : α → Run (StateM Directory) β) :
    (first >>= next).run d = (next a).run d' := by
  rw [run_bind, h]
  rfl

theorem run_bind_of_failure {first : Run (StateM Directory) α} {failure : Failure}
    (h : first.run d = (.error failure, d')) (next : α → Run (StateM Directory) β) :
    (first >>= next).run d = (.error failure, d') := by
  rw [run_bind, h]
  rfl

/-- The text of the file at a path, as the program reads it. -/
def Directory.text (d : Directory) (path : String) : Except String String :=
  textOfFile ((d.read path).mapError PathError.message)

end CommandLine

open CommandLine

/-! ## Calls -/

/-- A call of the program that asks for a migration, and the machine it is made on. -/
structure MigrationCall where
  lookup : String → Option String
  ivs : Supply Block
  ids : Supply RecordId
  secret : String
  words : List String
  path : String
  tenant : TenantId
  optIns : List FieldName
  enable : Bool
  key : KeyOptions
  parsed : Command.parse words = .ok (.migrate path tenant optIns enable key)

namespace MigrationCall

variable (c : MigrationCall) (d : Directory)

/-- The machine, with its files in a directory. -/
def host : Host (StateM Directory) := Directory.host c.lookup c.ivs c.ids c.secret

/-- What the program answers when it is called, and the directory that it leaves. -/
def run : Outcome × Directory := CommandLine.run c.host c.words d

/-- The vault that a call works on. -/
def vault (source : KeySource) (store : Store) : Vault where
  cipher := { keys := { source }, ivs := c.ivs }
  store := store
  tenancy := c.optIns.foldl (fun t field => t.setOptIn c.tenant field true) Tenancy.none
  ids := c.ids

/-- The call finds a source for the key, and a store in the file of the snapshot. -/
structure Finds (source : KeySource) (store : Store) : Prop where
  source : (keySource c.host c.key).run d = (.ok source, d)
  store : ∃ text, d.text c.path = .ok text ∧ Store.parse? text = some store

/-- What keeps a call from getting to write anything. -/
inductive Obstacle : Failure → Prop
  /-- The settings file cannot be read, or holds no settings. -/
  | settings {path : String} {e : Error} (hpath : c.key.config = some path)
      (hload : Settings.load path (d.text path) c.lookup = .error e) : Obstacle (.ofError e)
  /-- There is no key file where one is to be. -/
  | keyFile {path : String} (hpath : c.key.keyFile = some path) (hfile : d.isFile path = false) :
      Obstacle (.ofKeyError (KeySource.noSuchFile path))
  /-- The snapshot cannot be read. -/
  | unreadable {reason : String} (htext : d.text c.path = .error reason) :
      Obstacle ⟨"reading " ++ c.path, [reason]⟩
  /-- The file of the snapshot holds no snapshot, for whatever fault. -/
  | unparsable {text : String} (htext : d.text c.path = .ok text)
      (hparse : Store.parse? text = none) :
      Obstacle ⟨"parsing " ++ c.path, ["not a snapshot"]⟩
  /-- The migration asks for the key, and it cannot be resolved. -/
  | noKey {source : KeySource} {store : Store} {e : KeyError} (hfinds : c.Finds d source store)
      (hkey : (source 0).resolve.outcome = .error e)
      (hasks : answer (Work.setTenantEncryption c.tenant c.enable) (c.vault source store) =
        .error (.key e)) : Obstacle (.ofError (.key e))

/-! ## Before the migration -/

variable {c d}

theorem read_run (path : String) :
    (liftM (c.host.read path) : Run (StateM Directory) (Except String Bytes)).run d =
      (.ok ((d.read path).mapError PathError.message), d) :=
  rfl

theorem isFile_run (path : String) :
    (liftM (c.host.isFile path) : Run (StateM Directory) Bool).run d = (.ok (d.isFile path), d) :=
  rfl

theorem write_run (path text : String) :
    (liftM (c.host.write path text) : Run (StateM Directory) (Except String Unit)).run d =
      (.ok ((d.write path text).1.mapError PathError.message), (d.write path text).2) :=
  rfl

/-- The settings file is loaded, and what is wrong with it is fatal. -/
theorem loadSettings_run {path : String} (hpath : c.key.config = some path) :
    (loadSettings c.host c.key).run d =
      ((Settings.load path (d.text path) c.lookup).mapError Failure.ofError, d) := by
  unfold loadSettings
  simp only [hpath]
  rw [run_bind_of_answer (read_run path)]
  have hload : Settings.load path (textOfFile ((d.read path).mapError PathError.message))
      c.host.lookup = Settings.load path (d.text path) c.lookup := rfl
  rw [hload]
  cases Settings.load path (d.text path) c.lookup <;> rfl

theorem loadSettings_cases :
    (∃ settings, (loadSettings c.host c.key).run d = (.ok settings, d)) ∨
      ∃ failure, (loadSettings c.host c.key).run d = (.error failure, d) ∧
        c.Obstacle d failure := by
  cases hpath : c.key.config with
  | none =>
    unfold loadSettings
    rw [hpath]
    exact .inl ⟨_, rfl⟩
  | some path =>
    rw [loadSettings_run hpath]
    cases hload : Settings.load path (d.text path) c.lookup with
    | error e => exact .inr ⟨_, rfl, .settings hpath hload⟩
    | ok settings => exact .inl ⟨settings, rfl⟩

/-- A key file that is not there is fatal. -/
theorem keySource_run_of_not_isFile {settings : Settings} {path : String}
    (hsettings : (loadSettings c.host c.key).run d = (.ok settings, d))
    (hpath : c.key.keyFile = some path) (hfile : d.isFile path = false) :
    (keySource c.host c.key).run d =
      (.error (.ofKeyError (KeySource.noSuchFile path)), d) := by
  unfold keySource
  rw [run_bind_of_answer hsettings]
  simp only [hpath]
  rw [run_bind_of_answer (isFile_run path), hfile]
  rfl

/-- However the key is configured, its source answers alike each time, or is not found. -/
theorem keySource_cases :
    (∃ answer, (keySource c.host c.key).run d = (.ok (.constant answer), d)) ∨
      ∃ failure, (keySource c.host c.key).run d = (.error failure, d) ∧ c.Obstacle d failure := by
  rcases loadSettings_cases (c := c) (d := d) with ⟨settings, hsettings⟩ | ⟨failure, hfails, hwhy⟩
  · cases hpath : c.key.keyFile with
    | none =>
      unfold keySource
      rw [run_bind_of_answer hsettings, hpath]
      exact .inl ⟨_, rfl⟩
    | some path =>
      cases hfile : d.isFile path with
      | false =>
        exact .inr ⟨_, keySource_run_of_not_isFile hsettings hpath hfile, .keyFile hpath hfile⟩
      | true =>
        unfold keySource
        rw [run_bind_of_answer hsettings]
        simp only [hpath]
        rw [run_bind_of_answer (isFile_run path), hfile]
        simp only [if_true]
        rw [run_bind_of_answer (read_run path)]
        exact .inl ⟨_, rfl⟩
  · exact .inr ⟨failure, run_bind_of_failure hfails _, hwhy⟩

theorem loadSnapshot_run {text : String} {store : Store} (htext : d.text c.path = .ok text)
    (hparse : Store.parse? text = some store) :
    (loadSnapshot c.host c.path).run d = (.ok store, d) := by
  unfold loadSnapshot
  rw [run_bind_of_answer (read_run c.path)]
  have htext' : textOfFile ((d.read c.path).mapError PathError.message) = .ok text := htext
  simp only [htext', hparse]
  rfl

theorem loadSnapshot_cases :
    (∃ text store, d.text c.path = .ok text ∧ Store.parse? text = some store) ∨
      ∃ failure, (loadSnapshot c.host c.path).run d = (.error failure, d) ∧
        c.Obstacle d failure := by
  unfold loadSnapshot
  rw [run_bind_of_answer (read_run c.path)]
  have htext : textOfFile ((d.read c.path).mapError PathError.message) = d.text c.path := rfl
  rw [htext]
  cases hread : d.text c.path with
  | error reason => exact .inr ⟨_, rfl, .unreadable hread⟩
  | ok text =>
    cases hparse : Store.parse? text with
    | none =>
      refine .inr ⟨_, ?_, .unparsable hread hparse⟩
      simp only [hparse]
      rfl
    | some store => exact .inl ⟨text, store, rfl, hparse⟩

/-! ## The migration and the file -/

theorem calm_vault (answer : KeyAnswer) (store : Store) :
    (c.vault (.constant answer) store).Calm answer.resolve.outcome :=
  ⟨fun _ _ => rfl, rfl, rfl⟩

/-- A snapshot stands in a file, for what can be read elsewhere is empty. -/
theorem Finds.exists_file {source : KeySource} {store : Store} (h : c.Finds d source store) :
    ∃ file, d.find c.path = .ok (.file file) := by
  obtain ⟨text, htext, hparse⟩ := h.store
  cases hread : d.read c.path with
  | error e =>
    rw [Directory.text, hread] at htext
    cases htext
  | ok content =>
    obtain ⟨file, hfile, -⟩ := Directory.exists_find_of_read hread fun hempty => by
      rw [Directory.text, hread, hempty] at htext
      cases htext
      cases hparse
    exact ⟨file, hfile⟩

/-- What the program answers to a call, from what the migration answers. -/
theorem run_of_migrate {x : Except Failure Answer} {d' : Directory}
    (h : (migrate c.host c.path c.tenant c.optIns c.enable c.key).run d = (x, d')) :
    c.run d = (outcomeOf x, d') := by
  have hexecute : c.run d = (outcomeOf
      ((migrate c.host c.path c.tenant c.optIns c.enable c.key).run d).1,
      ((migrate c.host c.path c.tenant c.optIns c.enable c.key).run d).2) := by
    unfold run CommandLine.run
    simp only [c.parsed]
    rfl
  rw [hexecute, h]

theorem run_of_failure {failure : Failure} {d' : Directory}
    (h : (migrate c.host c.path c.tenant c.optIns c.enable c.key).run d = (.error failure, d')) :
    c.run d = (⟨1, "", failure.report⟩, d') :=
  run_of_migrate h

theorem cipher_run {source : KeySource}
    (h : (keySource c.host c.key).run d = (.ok source, d)) :
    (cipher c.host c.key).run d = (.ok { keys := { source }, ivs := c.ivs }, d) :=
  run_bind_of_answer h _

/-- What a call does about the outcome of its migration. -/
def conclude : EStateM.Result Error Vault Report → Run (StateM Directory) Answer
  | .error e _ => throw (.ofError e)
  | .ok report v' => do
    match ← c.host.write c.path v'.store.toJson.pretty with
    | .ok _ => return migrationAnswer report
    | .error reason => throw ⟨"writing " ++ c.path, [reason]⟩

section Found

variable {source : KeySource} {store : Store} (h : c.Finds d source store)
include h

theorem migrate_run : (migrate c.host c.path c.tenant c.optIns c.enable c.key).run d =
    (c.conclude (Work.setTenantEncryption c.tenant c.enable (c.vault source store))).run d := by
  obtain ⟨text, htext, hparse⟩ := h.store
  unfold migrate
  rw [run_bind_of_answer (cipher_run h.source), run_bind_of_answer (loadSnapshot_run htext hparse)]
  rfl

/-- A migration that fails writes nothing. -/
theorem run_of_error {e : Error} {w : Vault}
    (hrun : Work.setTenantEncryption c.tenant c.enable (c.vault source store) = .error e w) :
    c.run d = (⟨1, "", (Failure.ofError e).report⟩, d) := by
  refine run_of_failure ?_
  rw [migrate_run h, hrun]
  rfl

/-- A migration that succeeds leaves its store in the file of the snapshot. -/
theorem run_of_ok {report : Report} {v' : Vault} {file : StoredFile}
    (hrun : Work.setTenantEncryption c.tenant c.enable (c.vault source store) = .ok report v')
    (hfile : d.find c.path = .ok (.file file)) :
    c.run d = (outcomeOf (.ok (migrationAnswer report)),
      d.put { file with content := Utf8.encode v'.store.toJson.pretty }) := by
  refine run_of_migrate ?_
  rw [migrate_run h, hrun, conclude, run_bind_of_answer (write_run c.path _),
    Directory.write_of_find _ hfile]
  rfl

end Found

theorem status_outcomeOf (report : Report) :
    (outcomeOf (.ok (migrationAnswer report))).status = if report.failures = [] then 0 else 1 := by
  unfold outcomeOf migrationAnswer
  by_cases hfailures : report.failures = []
  · simp only [if_pos hfailures]
  · simp only [if_neg hfailures]

variable (c d) in
/-- The call leaves the store that the migration makes, printed on lines, in the file of the
snapshot, and all other files as they were. It ends as a failure if owners failed verification. -/
def Rewrites : Prop :=
  ∃ source store report v' file outcome d', c.Finds d source store ∧
    Work.setTenantEncryption c.tenant c.enable (c.vault source store) = .ok report v' ∧
    d.find c.path = .ok (.file file) ∧ c.run d = (outcome, d') ∧
    d'.read c.path = .ok (Utf8.encode v'.store.toJson.pretty) ∧
    (∀ name, name ≠ file.name → d'.file? name = d.file? name) ∧
    outcome.status = if report.failures = [] then 0 else 1

theorem Finds.rewrites {source : KeySource} {store : Store} (h : c.Finds d source store)
    {report : Report} {v' : Vault}
    (hrun : Work.setTenantEncryption c.tenant c.enable (c.vault source store) = .ok report v') :
    c.Rewrites d := by
  obtain ⟨file, hfile⟩ := h.exists_file
  refine ⟨source, store, report, v', file, _, _, h, hrun, hfile, run_of_ok h hrun hfile, ?_, ?_,
    status_outcomeOf report⟩
  · exact Directory.read_put hfile _
  · exact fun name hname => Directory.file?_put_of_ne hname

/-- A call that finds what it needs has met with no obstacle. -/
theorem Rewrites.no_obstacle (h : c.Rewrites d) {failure : Failure} : ¬ c.Obstacle d failure := by
  obtain ⟨source, store, report, v', file, outcome, d', hfinds, hrun, -⟩ := h
  obtain ⟨text, htext, hparse⟩ := hfinds.store
  intro hwhy
  cases hwhy with
  | settings hpath hload =>
    have hfails := loadSettings_run (d := d) hpath
    rw [hload] at hfails
    cases hfinds.source.symm.trans (run_bind_of_failure hfails _)
  | keyFile hpath hfile =>
    rcases loadSettings_cases (c := c) (d := d) with ⟨settings, hsettings⟩ | ⟨_, hfails, -⟩
    · cases hfinds.source.symm.trans (keySource_run_of_not_isFile hsettings hpath hfile)
    · cases hfinds.source.symm.trans (run_bind_of_failure hfails _)
  | unreadable hunread => cases htext.symm.trans hunread
  | unparsable htext' hnone =>
    cases htext.symm.trans htext'
    cases hparse.symm.trans hnone
  | noKey hfinds' hkey hasks =>
    obtain ⟨text', htext', hparse'⟩ := hfinds'.store
    cases htext.symm.trans htext'
    cases hparse.symm.trans hparse'
    cases hfinds.source.symm.trans hfinds'.source
    cases (answer_of_run hrun).symm.trans hasks

variable (c d) in
/-- **A call is kept from writing, or rewrites the file of the snapshot.** -/
theorem obstacle_or_rewrites :
    (∃ failure, c.Obstacle d failure ∧ c.run d = (⟨1, "", failure.report⟩, d)) ∨
      c.Rewrites d := by
  -- The key source comes first, then the snapshot, then the migration.
  rcases keySource_cases (c := c) (d := d) with ⟨keyAnswer, hsource⟩ | ⟨failure, hfails, hwhy⟩
  · rcases loadSnapshot_cases (c := c) (d := d) with
      ⟨text, store, htext, hparse⟩ | ⟨failure, hfails, hwhy⟩
    · have hfinds : c.Finds d (.constant keyAnswer) store := ⟨hsource, text, htext, hparse⟩
      have hwants := Work.setTenantEncryption_failsOnly (calm_vault (c := c) keyAnswer store)
        c.tenant c.enable
      rcases hrun : Work.setTenantEncryption c.tenant c.enable
          (c.vault (.constant keyAnswer) store) with ⟨report, v'⟩ | ⟨e, w⟩
      · exact .inr (hfinds.rewrites hrun)
      · have he := answer_of_run_error hrun
        obtain ⟨e', rfl, hkey⟩ := hwants.error e he
        exact .inl ⟨_, .noKey hfinds hkey he, run_of_error hfinds hrun⟩
    · refine .inl ⟨failure, hwhy, run_of_failure ?_⟩
      unfold migrate
      rw [run_bind_of_answer (cipher_run hsource)]
      exact run_bind_of_failure hfails _
  · refine .inl ⟨failure, hwhy, run_of_failure ?_⟩
    unfold migrate
    exact run_bind_of_failure (run_bind_of_failure hfails _) _

/-! ## The round trip -/

variable (c d) in
/-- The call finds a key, and it is this one. -/
def HasKey (k : Key) : Prop :=
  ∃ source, (keySource c.host c.key).run d = (.ok source, d) ∧
    (source 0).resolve.outcome = .ok k

theorem HasKey.exists_source {k : Key} (h : c.HasKey d k) :
    ∃ source, (keySource c.host c.key).run d = (.ok source, d) ∧
      ∀ store, (c.vault source store).Calm (.ok k) := by
  obtain ⟨source, hsource, hkey⟩ := h
  refine ⟨source, hsource, fun store => ?_⟩
  rcases keySource_cases (c := c) (d := d) with ⟨answer, hconstant⟩ | ⟨failure, hfails, -⟩
  · rw [hsource] at hconstant
    cases hconstant
    have hcalm := calm_vault (c := c) answer store
    rwa [show answer.resolve.outcome = .ok k from hkey] at hcalm
  · rw [hsource] at hfails
    cases hfails

/-- **There and back.** A tenant that is switched on by one call and off by the next is found in the
file as it was, printed on lines. -/
theorem thereAndBack {there back : MigrationCall} {k : Key} {text : String} {store : Store}
    (hthere : there.enable = true) (hback : back.enable = false)
    (htenant : back.tenant = there.tenant) (hpath : d.find back.path = d.find there.path)
    (htext : d.text there.path = .ok text) (hparse : Store.parse? text = some store)
    (huntouched : store.Untouched there.tenant) (hkey : there.HasKey d k)
    (hkey' : back.HasKey (there.run d).2 k) :
    ∃ first d₁ second d₂, there.run d = (first, d₁) ∧ back.run d₁ = (second, d₂) ∧
      first.status = 0 ∧ second.status = 0 ∧
      d₂.read there.path = .ok (Utf8.encode store.toJson.pretty) := by
  -- The way there.
  obtain ⟨source, hsource, hcalm⟩ := hkey.exists_source
  have hfinds : there.Finds d source store := ⟨hsource, text, htext, hparse⟩
  obtain ⟨file, hfile⟩ := hfinds.exists_file
  obtain ⟨encrypted, v₁, hon, hclean, hrestores⟩ := Work.switch_restores (hcalm store) huntouched
  rw [← hthere] at hon
  have hfirst := run_of_ok hfinds hon hfile
  rw [hfirst] at hkey'
  -- What it printed is what is read on the way back.
  obtain ⟨source', hsource', hcalm'⟩ := hkey'.exists_source
  have hfile' : d.find back.path = .ok (.file file) := hpath.trans hfile
  have hfinds' : back.Finds (d.put { file with content := Utf8.encode v₁.store.toJson.pretty })
      source' v₁.store := by
    refine ⟨hsource', v₁.store.toJson.pretty, ?_, v₁.store.parse?_print (by simp)⟩
    rw [Directory.text, Directory.read_put hfile', Except.mapError, textOfFile]
    simp only [Utf8.decode_encode]
  obtain ⟨restored, v₂, hoff, hclean', hstore⟩ :=
    hrestores (back.vault source' v₁.store) (hcalm' v₁.store) rfl
  rw [← hback, ← htenant] at hoff
  have hsecond := run_of_ok hfinds' hoff (Directory.find_put hfile' _)
  refine ⟨_, _, _, _, hfirst, hsecond, ?_, ?_, ?_⟩
  · rw [status_outcomeOf, if_pos hclean]
  · rw [status_outcomeOf, if_pos hclean']
  · rw [hstore]
    exact Directory.read_put (Directory.find_put hfile _) _

/-- **A migration never corrupts the file of its snapshot.** Whatever there is in the directory and
however the key is configured: a call that meets with an obstacle fails, prints nothing but why, and
leaves every file as it was; any other call rewrites the snapshot. And if one call switches a tenant
on and another, with the same key at hand, switches it off again, both succeed and leave what the
snapshot was, printed on lines, provided that the owners of the tenant were untouched. -/
theorem keeps_snapshot :
    (∀ (c : MigrationCall) (d : Directory),
      ((∃ failure, c.Obstacle d failure) →
        ∃ failure, c.Obstacle d failure ∧ c.run d = (⟨1, "", failure.report⟩, d)) ∧
      ((¬ ∃ failure, c.Obstacle d failure) → c.Rewrites d)) ∧
    ∀ (there back : MigrationCall) (d : Directory) (k : Key) (text : String) (store : Store),
      there.enable = true → back.enable = false → back.tenant = there.tenant →
      d.find back.path = d.find there.path → d.text there.path = .ok text →
      Store.parse? text = some store → store.Untouched there.tenant →
      there.HasKey d k → back.HasKey (there.run d).2 k →
      ∃ first d₁ second d₂, there.run d = (first, d₁) ∧ back.run d₁ = (second, d₂) ∧
        first.status = 0 ∧ second.status = 0 ∧
        d₂.read there.path = .ok (Utf8.encode store.toJson.pretty) := by
  refine ⟨fun c d => ?_, ?_⟩
  · rcases obstacle_or_rewrites c d with ⟨failure, hwhy, hrun⟩ | hrewrites
    · exact ⟨fun _ => ⟨failure, hwhy, hrun⟩, fun hnone => absurd ⟨failure, hwhy⟩ hnone⟩
    · exact ⟨fun ⟨_, hwhy⟩ => absurd hwhy hrewrites.no_obstacle, fun _ => hrewrites⟩
  · intro there back d k text store hthere hback htenant hpath htext hparse huntouched hkey hkey'
    exact thereAndBack hthere hback htenant hpath htext hparse huntouched hkey hkey'

/-- A snapshot of one owner. -/
def aliceStore : Store :=
  ({} : Store).putOwner ⟨"u-1", "acme", false, Registry.empty.file ⟨"email", some "alice"⟩⟩

def aliceDirectory : Directory := ⟨[⟨"snap.json", Utf8.encode aliceStore.toJson.compact, false⟩]⟩

def aliceKey : Key := ⟨Utf8.encode "1234567891123456", by decide +kernel⟩

/-- A call on a machine with that key in its environment. -/
def aliceCall (words : List String) (optIns : List FieldName) (enable : Bool)
    (keyFile : Option String) (parsed : Command.parse words =
      .ok (.migrate "snap.json" "acme" optIns enable ⟨none, keyFile⟩)) : MigrationCall where
  lookup name := if name = KeySource.secretVariable then some "1234567891123456" else none
  ivs := ⟨fun _ => Block.zero, 0⟩
  ids := ⟨fun _ => ⟨Block.zero⟩, 0⟩
  secret := ""
  words := words
  path := "snap.json"
  tenant := "acme"
  optIns := optIns
  enable := enable
  key := ⟨none, keyFile⟩
  parsed := parsed

def aliceOn : MigrationCall :=
  aliceCall ["migrate", "-s", "snap.json", "-t", "acme", "--opt-in", "email", "--enable"] ["email"]
    true none (by decide +kernel)

def aliceOff : MigrationCall :=
  aliceCall ["migrate", "--snapshot=snap.json", "-tacme", "--disable"] [] false none
    (by decide +kernel)

def aliceLost : MigrationCall :=
  aliceCall ["migrate", "-s", "snap.json", "-t", "acme", "--enable", "-k", "gone.key"] [] true
    (some "gone.key") (by decide +kernel)

theorem text_alice : aliceDirectory.text "snap.json" = .ok aliceStore.toJson.compact := by
  have hfile : aliceDirectory.find "snap.json" =
      .ok (.file ⟨"snap.json", Utf8.encode aliceStore.toJson.compact, false⟩) := rfl
  rw [Directory.text, Directory.read_of_find hfile, Except.mapError, textOfFile]
  simp only [Utf8.decode_encode]

theorem parse?_alice : Store.parse? aliceStore.toJson.compact = some aliceStore :=
  aliceStore.parse?_print List.mem_cons_self

theorem untouched_alice : aliceStore.Untouched "acme" := by
  intro id owner ho _
  have halice := Store.eq_of_owner?_single ho
  subst halice
  refine ⟨rfl, fun field value hfield => ?_⟩
  rw [Owner.eq_of_value_single hfield]
  decide

/-- One call lacks its key file, one switches the tenant on, and one switches it off again. -/
theorem keeps_snapshot_alice :
    (∃ failure : Failure, aliceLost.run aliceDirectory =
      (⟨1, "", failure.report⟩, aliceDirectory)) ∧
    aliceOn.Rewrites aliceDirectory ∧
    ∃ first d₁ second d₂, aliceOn.run aliceDirectory = (first, d₁) ∧
      aliceOff.run d₁ = (second, d₂) ∧ first.status = 0 ∧ second.status = 0 ∧
      d₂.read "snap.json" = .ok (Utf8.encode aliceStore.toJson.pretty) := by
  obtain ⟨hcalls, htrips⟩ := keeps_snapshot
  -- The key is in the environment, whatever the files are.
  have hon : ∀ d, aliceOn.HasKey d aliceKey := fun d => ⟨_, rfl, by decide +kernel⟩
  have hoff : ∀ d, aliceOff.HasKey d aliceKey := fun d => ⟨_, rfl, by decide +kernel⟩
  refine ⟨?_, (hcalls aliceOn aliceDirectory).2 ?_, ?_⟩
  · obtain ⟨failure, -, hrun⟩ := (hcalls aliceLost aliceDirectory).1 ⟨_, .keyFile rfl rfl⟩
    exact ⟨failure, hrun⟩
  · rintro ⟨failure, hwhy⟩
    cases hwhy with
    | settings hpath => cases hpath
    | keyFile hpath => cases hpath
    | unreadable htext => cases text_alice.symm.trans htext
    | unparsable htext hnone =>
      cases text_alice.symm.trans htext
      cases parse?_alice.symm.trans hnone
    | noKey hfinds hkey =>
      obtain ⟨source, hsource, hfound⟩ := hon aliceDirectory
      cases hsource.symm.trans hfinds.source
      cases hfound.symm.trans hkey
  · exact htrips aliceOn aliceOff aliceDirectory aliceKey _ aliceStore rfl rfl rfl rfl text_alice
      parse?_alice untouched_alice (hon _) (hoff _)

end MigrationCall

end FieldVault

/-
What is drawn at random makes no difference.

A vault draws initialisation vectors and ids of shadow records. Take two vaults that differ in
nothing but what they are going to draw, and let both serve the same operations. They are twins to
begin with, and every operation keeps them twins and answers the same in both: reading does so
because twins read alike, encrypting because twins are encrypted to twins and reported alike, and
whatever looks at records, heads or settings because these are equal. Work that is put together
from such parts is of the same kind, so only the parts are looked at one by one; a run of
operations is an induction on their list.
-/
import FieldVault.Event
import FieldVault.Proofs.Decryption.Tenant
import FieldVault.Proofs.Encryption.Ciphertexts
import FieldVault.Proofs.Twins

set_option autoImplicit false

namespace FieldVault

open Vault

variable {α β : Type} {k : Key} {v v' w w' : Vault}

/-! ## Operations -/

/-- What hosts, clients and administrators do with a vault. -/
inductive Operation where
  | insertOwner (owner : Owner)
  | writeField (id : OwnerId) (field : FieldName) (value : Option String)
  | setEnabled (tenant : TenantId) (enabled : Bool)
  | setOptIn (tenant : TenantId) (field : FieldName) (chosen : Bool)
  | encryptOwner (id : OwnerId)
  | handleEvent (event : Event)
  | setTenantEncryption (tenant : TenantId) (enabled : Bool)
  | encryptAll (tenant : TenantId)
  | decryptAll (tenant : TenantId)
  | loadField (id : OwnerId) (field : FieldName)
  | loadOwner (id : OwnerId)
  | search (tenant : TenantId) (field : FieldName) (value : String)

/-- What an operation that succeeds answers. -/
inductive Response where
  | done
  | report (report : Report)
  | value (value : Option String)
  | reading (reading : Reading)
  | owners (ids : List OwnerId)

namespace Operation

/-- The work that an operation stands for. A write is a unit of work of its own. -/
def run : Operation → Work Response
  | insertOwner owner => do
    Work.insertOwner owner
    return .done
  | writeField id field value => do
    Work.transaction (Work.writeField id field value)
    return .done
  | setEnabled tenant enabled => do
    Work.setEnabled tenant enabled
    return .done
  | setOptIn tenant field chosen => do
    Work.setOptIn tenant field chosen
    return .done
  | encryptOwner id => return .report (← Work.encryptOwner id)
  | handleEvent event => return .report (← Work.handleEvent event)
  | setTenantEncryption tenant enabled =>
    return .report (← Work.setTenantEncryption tenant enabled)
  | encryptAll tenant => return .report (← Work.encryptAll tenant)
  | decryptAll tenant => return .report (← Work.decryptAll tenant)
  | loadField id field => return .value (← Work.loadField id field)
  | loadOwner id => return .reading (← Work.loadOwnerPlain id)
  | search tenant field value => return .owners (← Work.search tenant field value)

end Operation

namespace Vault

/-- The vault that operations leave, one after the other. -/
def perform (v : Vault) (operations : List Operation) : Vault :=
  operations.foldl (fun v operation => after operation.run v) v

/-- The same vault with other draws ahead. -/
def withDraws (v : Vault) (ivs : Supply Block) (ids : Supply RecordId) : Vault :=
  { v with cipher := { v.cipher with ivs }, ids }

/-! ## Twin vaults -/

/-- Both vaults have the key at hand and the same settings, and their cells are twins. -/
structure Twins (k : Key) (v w : Vault) : Prop where
  left : v.Calm (.ok k)
  right : w.Calm (.ok k)
  tenancy : w.tenancy = v.tenancy
  strict : w.strict = v.strict
  heads : ∀ id, w.store.head? id = v.store.head? id
  cells : ∀ id field, Cell.Twin k (v.store.cell id field) (w.store.cell id field)

namespace Twins

theorem withDraws (h : v.Calm (.ok k)) (ivs : Supply Block) (ids : Supply RecordId) :
    Twins k v (v.withDraws ivs ids) :=
  ⟨h, ⟨h.answers, h.serving, h.outages⟩, rfl, rfl, fun _ => rfl, fun _ _ => .refl _⟩

theorem sameContents (h : Twins k v w) : v.SameContents w :=
  .of_twins h.left h.right h.heads h.cells

theorem owner? (h : Twins k v w) (id : OwnerId) : w.store.owner? id = v.store.owner? id :=
  Store.owner?_congr (h.heads id) fun field => (h.cells id field).entry

theorem of_reads (h : Twins k v w) (hv : Vault.Reads (.ok k) v v')
    (hw : Vault.Reads (.ok k) w w') : Twins k v' w' := by
  refine ⟨hv.calm, hw.calm, ?_, ?_, ?_, ?_⟩
  · rw [hv.tenancy, hw.tenancy, h.tenancy]
  · rw [hv.strict, hw.strict, h.strict]
  · rw [hv.store, hw.store]
    exact h.heads
  · rw [hv.store, hw.store]
    exact h.cells

/-- Writes to the same cells that leave twins in these leave twins everywhere. -/
theorem of_writes (h : Twins k v w) {touched : OwnerId → FieldName → Prop}
    (hv : Writes (.ok k) touched v v') (hw : Writes (.ok k) touched w w')
    (htouched : ∀ id field, touched id field →
      Cell.Twin k (v'.store.cell id field) (w'.store.cell id field)) : Twins k v' w' := by
  refine ⟨hv.calm, hw.calm, ?_, ?_, fun id => ?_, fun id field => ?_⟩
  · rw [hv.tenancy, hw.tenancy, h.tenancy]
  · rw [hv.strict, hw.strict, h.strict]
  · rw [hv.off.heads, hw.off.heads, h.heads]
  · by_cases ht : touched id field
    · exact htouched id field ht
    · rw [hv.off.cells id field ht, hw.off.cells id field ht]
      exact h.cells id field

end Twins

end Vault

namespace Work

/-! ## Work that twins do alike -/

/-- Twins answer the same and stay twins. -/
def Concordant (k : Key) (work : Work α) : Prop :=
  ∀ v w, Twins k v w → answer work w = answer work v ∧ Twins k (after work v) (after work w)

theorem alike_of_runs {work : Work α} {a : α} (hv : work v = .ok a v') (hw : work w = .ok a w')
    (h : Twins k v' w') :
    answer work w = answer work v ∧ Twins k (after work v) (after work w) := by
  rw [answer_of_run hv, answer_of_run hw, after_of_run hv, after_of_run hw]
  exact ⟨rfl, h⟩

theorem alike_of_errors {work : Work α} {e : Error} (hv : work v = .error e v')
    (hw : work w = .error e w') (h : Twins k v' w') :
    answer work w = answer work v ∧ Twins k (after work v) (after work w) := by
  rw [answer_of_run_error hv, answer_of_run_error hw, after_of_run_error hv,
    after_of_run_error hw]
  exact ⟨rfl, h⟩

namespace Concordant

theorem of_reads {work : Work α} (h : ∀ v w, Twins k v w →
    ∃ x, ReadsAs (.ok k) work v x ∧ ReadsAs (.ok k) work w x) : Concordant k work := by
  intro v w hvw
  obtain ⟨x, hv, hw⟩ := h v w hvw
  exact ⟨hw.answer.trans hv.answer.symm, hvw.of_reads hv.reads hw.reads⟩

theorem pure (a : α) : Concordant k (Pure.pure a) := fun _ _ hvw => ⟨rfl, hvw⟩

/-- Work that looks at something that is the same in twins. -/
theorem of_look {work : Work α} (look : Vault → α)
    (h : ∀ v, v.Calm (.ok k) → work v = .ok (look v) v)
    (hsame : ∀ v w, Twins k v w → look w = look v) : Concordant k work := by
  refine .of_reads fun v w hvw => ⟨.ok (look v), .of_run hvw.left (h v hvw.left), ?_⟩
  rw [← hsame v w hvw]
  exact .of_run hvw.right (h w hvw.right)

theorem bind {work : Work α} {next : α → Work β} (h : Concordant k work)
    (hnext : ∀ a, Concordant k (next a)) : Concordant k (work >>= next) := by
  intro v w hvw
  obtain ⟨hanswer, hafter⟩ := h v w hvw
  rw [answer_bind, answer_bind, after_bind, after_bind, hanswer]
  cases answer work v with
  | error e => exact ⟨rfl, hafter⟩
  | ok a => exact hnext a _ _ hafter

theorem each {work : α → Work β} (h : ∀ a, Concordant k (work a)) (items : List α) :
    Concordant k (each work items) := by
  induction items with
  | nil => exact .pure []
  | cons a as ih => exact (h a).bind fun _ => ih.bind fun _ => .pure _

theorem tally {work : α → Work Report} (h : ∀ a, Concordant k (work a)) (items : List α) :
    Concordant k (tally work items) :=
  (Concordant.each h items).bind fun _ => .pure _

end Concordant

/-! ## Looking -/

theorem note_concordant (notice : Notice) : Concordant k (note notice) :=
  .of_reads fun _ _ hvw => ⟨_, note_reads hvw.left notice, note_reads hvw.right notice⟩

theorem isEnabled_concordant (tenant : TenantId) : Concordant k (isEnabled tenant) := by
  refine .of_look (fun v => v.tenancy.enabled tenant) (fun _ _ => rfl) ?_
  intro v w hvw
  rw [hvw.tenancy]

theorem inScope_concordant (tenant : TenantId) (field : FieldName) :
    Concordant k (inScope tenant field) := by
  refine .of_look (fun v => v.tenancy.inScope tenant field) (fun _ _ => rfl) ?_
  intro v w hvw
  rw [hvw.tenancy]

theorem ownersIn_concordant (tenant : TenantId) : Concordant k (ownersIn tenant) :=
  .of_look _ (fun _ h => ownersIn_run h tenant) fun _ _ hvw =>
    Store.ownersIn_congr hvw.heads tenant

theorem holders_concordant (tenant : TenantId) (field : FieldName) (value : String) :
    Concordant k (holders tenant field value) := by
  refine .of_look _ (fun _ h => holders_run h tenant field value) ?_
  intro v w hvw
  unfold Store.holders
  rw [hvw.sameContents.owners]

theorem search_concordant (tenant : TenantId) (field : FieldName) (value : String) :
    Concordant k (search tenant field value) := by
  refine (holders_concordant tenant field value).bind fun found => ?_
  cases found with
  | cons id ids => exact .pure _
  | nil =>
    refine (inScope_concordant tenant field).bind fun scope => ?_
    cases scope with
    | false => exact .pure _
    | true => exact holders_concordant tenant field _

theorem key_concordant : Concordant k (onCipher FieldCipher.key) :=
  .of_reads fun _ _ hvw => ⟨_, key_reads hvw.left, key_reads hvw.right⟩

theorem loadField_concordant (id : OwnerId) (field : FieldName) :
    Concordant k (loadField id field) := by
  refine .of_reads fun v w hvw => ?_
  have howner := hvw.owner? id
  cases ho : v.store.owner? id with
  | none =>
    exact ⟨_, loadField_reads_of_none hvw.left ho field,
      loadField_reads_of_none hvw.right (howner.trans ho) field⟩
  | some owner =>
    have hw := loadField_reads hvw.right (howner.trans ho) field
    rw [hvw.strict, (hvw.cells id field).read] at hw
    exact ⟨_, loadField_reads hvw.left ho field, hw⟩

theorem loadOwnerPlain_concordant (id : OwnerId) : Concordant k (loadOwnerPlain id) := by
  refine .of_reads fun v w hvw => ?_
  have howner := hvw.owner? id
  cases ho : v.store.owner? id with
  | none =>
    exact ⟨_, loadOwnerPlain_reads_of_none hvw.left ho,
      loadOwnerPlain_reads_of_none hvw.right (howner.trans ho)⟩
  | some owner =>
    have hid := Store.id_of_owner? ho
    subst hid
    have hw := loadOwnerPlain_reads_key hvw.right (howner.trans ho)
    rw [hvw.strict, Store.reading_of_twins (hvw.cells owner.id) ho (howner.trans ho)] at hw
    exact ⟨_, loadOwnerPlain_reads_key hvw.left ho, hw⟩

/-! ## Migrating -/

theorem encryptOwner_concordant (id : OwnerId) : Concordant k (encryptOwner id) := by
  intro v w hvw
  have howner := hvw.owner? id
  cases ho : v.store.owner? id with
  | none =>
    exact alike_of_errors (encryptOwner_run_of_none hvw.left ho)
      (encryptOwner_run_of_none hvw.right (howner.trans ho)) hvw
  | some owner =>
    have hid := Store.id_of_owner? ho
    subst hid
    obtain ⟨v', hv, hwrites, hcells⟩ := encryptOwner_run_report hvw.left ho
    obtain ⟨w', hw, hwrites', hcells'⟩ := encryptOwner_run_report hvw.right (howner.trans ho)
    rw [hvw.tenancy] at hw hcells'
    rw [Store.encryptReport_of_twins (hvw.cells owner.id)] at hw
    refine alike_of_runs hv hw (hvw.of_writes hwrites hwrites' ?_)
    rintro id field rfl
    exact (hvw.cells owner.id field).migrated (hcells field) (hcells' field)

theorem decryptOwner_concordant (id : OwnerId) : Concordant k (decryptOwner id) := by
  intro v w hvw
  have howner := hvw.owner? id
  cases ho : v.store.owner? id with
  | none =>
    have hv := decryptOwner_reads_of_none hvw.left ho
    have hw := decryptOwner_reads_of_none hvw.right (howner.trans ho)
    exact ⟨hw.answer.trans hv.answer.symm, hvw.of_reads hv.reads hw.reads⟩
  | some owner =>
    have hid := Store.id_of_owner? ho
    subst hid
    have ho' := howner.trans ho
    obtain ⟨v', hv, hwrites, hcells⟩ := decryptOwner_run hvw.left ho
    obtain ⟨w', hw, hwrites', hcells'⟩ := decryptOwner_run hvw.right ho'
    rw [Store.decryptReport_of_twins ho ho' (hvw.cells owner.id)] at hw
    refine alike_of_runs hv hw (hvw.of_writes hwrites hwrites' ?_)
    rintro id field rfl
    rw [hcells, hcells']
    exact Store.restored_of_twins ho ho' (hvw.cells owner.id) field

theorem encryptAll_concordant (tenant : TenantId) : Concordant k (encryptAll tenant) := by
  refine (isEnabled_concordant tenant).bind fun enabled => ?_
  cases enabled with
  | false => exact .pure _
  | true => exact (ownersIn_concordant tenant).bind (.tally encryptOwner_concordant)

theorem decryptAll_concordant (tenant : TenantId) : Concordant k (decryptAll tenant) :=
  (ownersIn_concordant tenant).bind (.tally decryptOwner_concordant)

theorem handleEvent_concordant (event : Event) : Concordant k (handleEvent event) := by
  refine (isEnabled_concordant _).bind fun enabled => ?_
  cases enabled with
  | false => exact .pure _
  | true =>
    have howner : Concordant k (ownerOfEvent event) := by
      cases event with
      | adminCreated tenant username =>
        exact (search_concordant tenant _ username).bind fun _ => .pure _
      | _ => exact .pure _
    refine howner.bind fun found => ?_
    cases found with
    | some owner => exact encryptOwner_concordant owner
    | none => exact (note_concordant _).bind fun _ => .pure _

/-! ## Editing -/

/-- A change of the settings that does not depend on the store. -/
theorem concordant_of_tenancy {work : Work Unit} (change : Tenancy → Tenancy)
    (h : ∀ v, v.Calm (.ok k) → work v = .ok () { v with tenancy := change v.tenancy }) :
    Concordant k work := by
  intro v w hvw
  refine alike_of_runs (h v hvw.left) (h w hvw.right)
    ⟨⟨hvw.left.answers, hvw.left.serving, hvw.left.outages⟩,
      ⟨hvw.right.answers, hvw.right.serving, hvw.right.outages⟩, ?_, hvw.strict, hvw.heads,
      hvw.cells⟩
  exact congrArg change hvw.tenancy

theorem setEnabled_concordant (tenant : TenantId) (enabled : Bool) :
    Concordant k (setEnabled tenant enabled) :=
  concordant_of_tenancy (fun tenancy => tenancy.setEnabled tenant enabled)
    fun _ h => setEnabled_run h tenant enabled

theorem setOptIn_concordant (tenant : TenantId) (field : FieldName) (chosen : Bool) :
    Concordant k (setOptIn tenant field chosen) :=
  concordant_of_tenancy (fun tenancy => tenancy.setOptIn tenant field chosen)
    fun _ _ => rfl

theorem insertOwner_concordant (owner : Owner) : Concordant k (insertOwner owner) := by
  intro v w hvw
  refine alike_of_runs (insertOwner_run hvw.left owner) (insertOwner_run hvw.right owner)
    ⟨(hvw.left.follows_store _).calm, (hvw.right.follows_store _).calm, hvw.tenancy, hvw.strict,
      fun id => ?_, fun id field => ?_⟩
  · by_cases hid : id = owner.id
    · subst hid
      rw [Store.head?_putOwner_self, Store.head?_putOwner_self]
    · rw [Store.head?_putOwner_of_ne hid, Store.head?_putOwner_of_ne hid, hvw.heads]
  · by_cases hid : id = owner.id
    · -- The entries are the new ones, and the shadow records stay as they are.
      subst hid
      rw [Store.cell_putOwner_self, Store.cell_putOwner_self]
      exact ⟨rfl, (hvw.cells owner.id field).revealed⟩
    · rw [Store.cell_putOwner_of_ne hid, Store.cell_putOwner_of_ne hid]
      exact hvw.cells id field

theorem writeField_concordant (id : OwnerId) (field : FieldName) (value : Option String) :
    Concordant k (transaction (writeField id field value)) := by
  intro v w hvw
  have howner := hvw.owner? id
  cases ho : v.store.owner? id with
  | none =>
    have hfails := fun {v : Vault} (h : v.Calm (.ok k)) (ho : v.store.owner? id = none) =>
      transaction_run_of_error h (writeField_run_of_none h ho field value)
    exact alike_of_errors (hfails hvw.left ho) (hfails hvw.right (howner.trans ho)) hvw
  | some owner =>
    obtain ⟨s, hs, hsets⟩ := Store.sets_writeField ho field value
    obtain ⟨t, ht, hsets'⟩ := Store.sets_writeField (howner.trans ho) field value
    have hv := transaction_run_of_ok hvw.left (writeField_run hvw.left hs)
    have hw := transaction_run_of_ok hvw.right (writeField_run hvw.right ht)
    refine alike_of_runs hv hw (hvw.of_writes (hvw.left.writes_of_sets hsets)
      (hvw.right.writes_of_sets hsets') ?_)
    rintro id' field' ⟨rfl, rfl⟩
    change Cell.Twin k (s.cell id' field') (t.cell id' field')
    rw [hsets.cell, hsets'.cell]
    exact ⟨rfl, (hvw.cells id' field').revealed⟩

theorem setTenantEncryption_concordant (tenant : TenantId) (enabled : Bool) :
    Concordant k (setTenantEncryption tenant enabled) := by
  unfold setTenantEncryption
  cases enabled with
  | true =>
    exact key_concordant.bind fun _ => (setEnabled_concordant tenant true).bind fun _ =>
      encryptAll_concordant tenant
  | false =>
    exact (setEnabled_concordant tenant false).bind fun _ => decryptAll_concordant tenant

end Work

/-! ## Runs -/

/-- Every operation is answered alike by twins and keeps them twins. -/
theorem Operation.concordant (operation : Operation) : Work.Concordant k operation.run := by
  cases operation with
  | insertOwner owner => exact (Work.insertOwner_concordant owner).bind fun _ => .pure _
  | writeField id field value =>
    exact (Work.writeField_concordant id field value).bind fun _ => .pure _
  | setEnabled tenant enabled =>
    exact (Work.setEnabled_concordant tenant enabled).bind fun _ => .pure _
  | setOptIn tenant field chosen =>
    exact (Work.setOptIn_concordant tenant field chosen).bind fun _ => .pure _
  | encryptOwner id => exact (Work.encryptOwner_concordant id).bind fun _ => .pure _
  | handleEvent event => exact (Work.handleEvent_concordant event).bind fun _ => .pure _
  | setTenantEncryption tenant enabled =>
    exact (Work.setTenantEncryption_concordant tenant enabled).bind fun _ => .pure _
  | encryptAll tenant => exact (Work.encryptAll_concordant tenant).bind fun _ => .pure _
  | decryptAll tenant => exact (Work.decryptAll_concordant tenant).bind fun _ => .pure _
  | loadField id field => exact (Work.loadField_concordant id field).bind fun _ => .pure _
  | loadOwner id => exact (Work.loadOwnerPlain_concordant id).bind fun _ => .pure _
  | search tenant field value =>
    exact (Work.search_concordant tenant field value).bind fun _ => .pure _

namespace Vault

/-- Operations one after the other keep twins twins. -/
theorem Twins.perform (h : Twins k v w) (operations : List Operation) :
    Twins k (v.perform operations) (w.perform operations) := by
  induction operations generalizing v w with
  | nil => exact h
  | cons operation rest ih => exact ih (operation.concordant v w h).2

/-- **Nothing depends on what is drawn at random.** From every state of the store and under all
settings, with a key at hand: let two vaults that differ only in the vectors and the ids that they
are going to draw perform the same operations, however many. Then they hold the same records and
shadow records for the same fields, with ciphertexts that decrypt to the same; and whatever is done
next is answered the same by both. -/
theorem results_independent_of_draws (h : v.Calm (.ok k)) (ivs : Supply Block)
    (ids : Supply RecordId) (operations : List Operation) :
    (v.perform operations).SameContents ((v.withDraws ivs ids).perform operations) ∧
      ∀ next : Operation, answer next.run ((v.withDraws ivs ids).perform operations) =
        answer next.run (v.perform operations) := by
  have htwins := (Twins.withDraws h ivs ids).perform operations
  exact ⟨htwins.sameContents, fun next => (next.concordant _ _ htwins).1⟩

/-- An owner is put in, encrypted under other draws, and read back. -/
theorem results_independent_of_draws_alice :
    let k : Key := ⟨List.replicate 16 7, .inl rfl⟩
    let alice : Owner := ⟨"alice", "acme", false, Registry.empty.file ⟨"email", some "a@acme"⟩⟩
    let v := settled k {} .none
    let w := v.withDraws ⟨Block.ofNat, 5⟩ ⟨fun i => ⟨Block.ofNat i⟩, 3⟩
    let operations := [.insertOwner alice, .setTenantEncryption "acme" true]
    (v.perform operations).SameContents (w.perform operations) ∧
      answer (Operation.loadOwner "alice").run (w.perform operations) =
        answer (Operation.loadOwner "alice").run (v.perform operations) := by
  intro k alice v w operations
  obtain ⟨hsame, hnext⟩ := results_independent_of_draws (calm_settled k {} .none) _ _ operations
  exact ⟨hsame, hnext (.loadOwner "alice")⟩

end Vault

end FieldVault

/-
What the counts of a report count.

A migration counts as it goes: a text that it seals, a shadow record that it takes away, a token
that it opens. What its report is read for is how the store has changed. The two agree, because each
cell is worked on at most once, and whatever is counted leaves its cell different. A value that is
sealed was no lookup hash and is one now. No text is the token that it is sealed in, so opening a
token changes the value. And a shadow record that is taken away is not written again. So each count
is the size of a set of owners or of fields that is told by the store before and the store after,
and no change is counted exactly if the two are equal.
-/
import FieldVault.Proofs.Decryption.Twice
import FieldVault.Proofs.Report.Sizes

set_option autoImplicit false

namespace FieldVault

open Vault

variable {k : Key} {v v' : Vault} {owner : Owner}

/-! ## What is counted -/

namespace Vault

/-- The fields that hold another value in the second vault. -/
def valuesChanged (v v' : Vault) : Set Slot :=
  {slot | (v'.store.cell slot.owner slot.field).stored ≠
    (v.store.cell slot.owner slot.field).stored}

/-- The fields with a shadow record in the first vault and without one in the second. -/
def shadowsLost (v v' : Vault) : Set Slot :=
  {slot | (v.store.shadow? slot.owner slot.field).isSome = true ∧
    v'.store.shadow? slot.owner slot.field = none}

/-- The fields that hold a token in the first vault, and in the second the text it decrypts to. -/
def tokensOpened (v v' : Vault) : Set Slot :=
  {slot | ∃ value text, (v.store.cell slot.owner slot.field).stored = some value ∧
    Token.isMarked value = true ∧ answer (FieldCipher.decrypt value) v.cipher = .ok text ∧
    (v'.store.cell slot.owner slot.field).stored = some text}

/-- The fields in scope of a tenant that hold a value of the shape of a lookup hash, those of
service accounts left out. -/
def hashedValues (v : Vault) (tenant : TenantId) : Set Slot :=
  {slot | v.store.head? slot.owner = some (tenant, false) ∧
    v.tenancy.inScope tenant slot.field = true ∧
    ∃ value, (v.store.cell slot.owner slot.field).stored = some value ∧
      LookupHash.isShaped value = true}

/-- The report tells of a run that encrypted the tenant: how many owners there are, how many of them
are service accounts, how many values look like lookup hashes, and how many values were replaced
and shadow records swept away. -/
structure CountsEncryption (v v' : Vault) (tenant : TenantId) (report : Report) : Prop where
  owners : (report.ownersVisited : ENat) =
    {id | ∃ service, v.store.head? id = some (tenant, service)}.encard
  serviceAccounts : (report.serviceAccountsSkipped : ENat) =
    {id | v.store.head? id = some (tenant, true)}.encard
  hashed : (report.hashedSkipped : ENat) = (v.hashedValues tenant).encard
  failures : report.failures = []
  changed : (report.fieldsChanged : ENat) =
    (v.valuesChanged v').encard + (v.shadowsLost v').encard

/-- The report tells of a run that decrypted a tenant: how many shadow records were taken away and
tokens opened in place. Nothing is skipped. -/
structure CountsDecryption (v v' : Vault) (report : Report) : Prop where
  changed : (report.fieldsChanged : ENat) =
    (v.shadowsLost v').encard + (v.tokensOpened v').encard
  serviceAccounts : report.serviceAccountsSkipped = 0
  hashed : report.hashedSkipped = 0

end Vault

/-! ## Encrypting one owner -/

namespace Cell

variable {c c' : Cell} {inScope : Bool}

theorem isSome_entry {value : String} (h : c.stored = some value) : c.entry.isSome = true := by
  rw [Cell.stored, Option.join_eq_some_iff] at h
  rw [h]
  rfl

/-- The value is in scope and has the shape of a lookup hash. -/
def isHashed (inScope : Bool) (c : Cell) : Bool := inScope && c.stored.any LookupHash.isShaped

theorem isHashed_iff : c.isHashed inScope = true ↔ inScope = true ∧
    ∃ value, c.stored = some value ∧ LookupHash.isShaped value = true := by
  rw [isHashed, Bool.and_eq_true, Option.any_eq_true]

theorem sealReport_eq (k : Key) (inScope : Bool) (c : Cell) : c.sealReport k inScope =
    { fieldsChanged := if (c.sealable k inScope).isSome then 1 else 0
      hashedSkipped := if c.isHashed inScope then 1 else 0 } := by
  unfold sealReport sealable isHashed
  cases inScope with
  | false => rfl
  | true =>
    cases c.stored with
    | none => rfl
    | some value =>
      cases hshaped : LookupHash.isShaped value with
      | true => simp [hshaped]
      | false =>
        cases hr : reveal (.ok k) value <;>
          simp [hshaped, hr, Except.toOption, Report.oneChanged]

/-- Encrypting replaces a value if there is a text to seal. -/
theorem EncryptsTo.stored_ne_iff (h : EncryptsTo k inScope c c') :
    c'.stored ≠ c.stored ↔ (c.sealable k inScope).isSome = true := by
  rcases h.cases with ⟨text, hs, hsealed⟩ | ⟨hs, rfl⟩
  · obtain ⟨-, value, hstored, hshaped, -⟩ := sealable_eq_some_iff.1 hs
    rw [hs, hsealed.stored, hstored]
    refine ⟨fun _ => rfl, fun _ heq => ?_⟩
    -- What was sealed had not the shape of a lookup hash.
    rw [← Option.some.inj heq, LookupHash.isShaped_of] at hshaped
    cases hshaped
  · rw [hs, stored_swept]
    simp

/-- Encrypting takes away the shadow records that sealing leaves over. -/
theorem EncryptsTo.shadow_lost_iff (h : EncryptsTo k inScope c c') :
    c.shadow.isSome = true ∧ c'.shadow = none ↔
      c.shadow.isSome = true ∧ c.isLeftover k inScope = true := by
  refine and_congr_right fun hsome => ?_
  rcases h.cases with ⟨text, hs, hsealed⟩ | ⟨hs, rfl⟩
  · obtain ⟨shadow, -, hshadow, -⟩ := hsealed.shadow
    simp [isLeftover, hs, hshadow]
  · rw [isLeftover, hs, shadow_swept]
    cases hstale : isStale c.stored with
    | true => simp
    | false => simpa using Option.isSome_iff_ne_none.1 hsome

/-- A cell that keeps its value and its shadow record, if it has one, is not changed at all. -/
theorem EncryptsTo.eq_of_kept (h : EncryptsTo k inScope c c') (hstored : c'.stored = c.stored)
    (hshadow : ¬(c.shadow.isSome = true ∧ c'.shadow = none)) : c' = c := by
  rcases h.cases with ⟨text, hs, -⟩ | ⟨-, rfl⟩
  · have hsome : (c.sealable k inScope).isSome = true := by
      rw [hs]
      rfl
    exact absurd hstored (h.stored_ne_iff.2 hsome)
  · rw [shadow_swept] at hshadow
    rw [swept]
    cases hstale : isStale c.stored with
    | false => rfl
    | true =>
      rw [hstale, if_pos rfl] at hshadow
      have hnone : c.shadow = none := by
        simpa using hshadow
      rw [if_pos rfl, ← hnone]

theorem MigratesTo.eq_of_kept {tenancy : Tenancy} {head : TenantId × Bool} {field : FieldName}
    (h : MigratesTo k tenancy head field c c') (hstored : c'.stored = c.stored)
    (hshadow : ¬(c.shadow.isSome = true ∧ c'.shadow = none)) : c' = c := by
  rw [MigratesTo] at h
  split at h
  · exact h.eq_of_kept hstored hshadow
  · exact h

end Cell

namespace Store

variable {s : Store} {tenancy : Tenancy}

theorem encryptReport_of_service (henabled : tenancy.enabled owner.tenant = true)
    (hservice : owner.serviceAccount = true) :
    s.encryptReport k tenancy owner = { ownersVisited := 1, serviceAccountsSkipped := 1 } := by
  rw [encryptReport, henabled, hservice]
  rfl

theorem encryptReport_of_person (henabled : tenancy.enabled owner.tenant = true)
    (hservice : owner.serviceAccount = false) :
    s.encryptReport k tenancy owner =
      { ownersVisited := 1
        fieldsChanged :=
          (owner.fields.toList.map Field.name).countP (fun field =>
            ((s.cell owner.id field).sealable k (tenancy.inScope owner.tenant field)).isSome) +
          ((s.shadowsOf owner.id).map Shadow.field).countP fun field =>
            (s.cell owner.id field).isLeftover k (tenancy.inScope owner.tenant field)
        hashedSkipped := (owner.fields.toList.map Field.name).countP fun field =>
          (s.cell owner.id field).isHashed (tenancy.inScope owner.tenant field) } := by
  rw [encryptReport, henabled, hservice, Report.sum_eq_of_counts fun f : Field =>
    Cell.sealReport_eq k (tenancy.inScope owner.tenant f.name) (s.cell owner.id f.name)]
  simp [List.countP_map, Function.comp_def, Report.add_def, Report.add, Report.changed]

theorem ownersVisited_encryptReport (henabled : tenancy.enabled owner.tenant = true) :
    (s.encryptReport k tenancy owner).ownersVisited = 1 := by
  cases hservice : owner.serviceAccount with
  | true => rw [encryptReport_of_service henabled hservice]
  | false => rw [encryptReport_of_person henabled hservice]

theorem serviceAccountsSkipped_encryptReport (henabled : tenancy.enabled owner.tenant = true) :
    (s.encryptReport k tenancy owner).serviceAccountsSkipped =
      if owner.serviceAccount then 1 else 0 := by
  cases hservice : owner.serviceAccount with
  | true =>
    rw [encryptReport_of_service henabled hservice]
    rfl
  | false =>
    rw [encryptReport_of_person henabled hservice]
    rfl

end Store

theorem Cell.stored_decrypted {c : Cell} {ref : FieldRef} (hlive : c.live? = none) :
    (c.decrypted k ref).stored = openedText k c.stored := by
  rw [decrypted_of_not_live hlive, Cell.stored, Cell.stored]
  rcases c.entry with _ | _ | value <;> rfl

/-- The changes by the fields that they are made in. -/
theorem Store.decryptChanges_eq_countP {s : Store} (ho : s.owner? owner.id = some owner) :
    s.decryptChanges k owner =
      ((s.shadowsOf owner.id).map Shadow.field).countP (fun _ => true) +
        (s.tokenNames owner).countP fun field => opens k (s.cell owner.id field).stored := by
  rw [decryptChanges, List.countP_true, List.length_map, tokenNames, List.countP_map]
  congr 1
  refine List.countP_congr fun f hf => ?_
  obtain ⟨hentry, -⟩ := (mem_tokenFields_iff ho).1 hf
  rw [Function.comp_apply, Cell.stored, entry_cell ho, hentry]
  rfl

/-- Decrypting passes no owner and no field over. -/
theorem Store.skips_decryptReport (s : Store) (k : Key) (id : OwnerId) :
    (s.decryptReport k id).serviceAccountsSkipped = 0 ∧
      (s.decryptReport k id).hashedSkipped = 0 := by
  unfold decryptReport
  split
  · exact ⟨rfl, rfl⟩
  · split
    · exact ⟨rfl, rfl⟩
    · exact ⟨rfl, rfl⟩

/-! ## Owners -/

namespace Vault

theorem cell_ne_of_mem_valuesChanged {slot : Slot} (h : slot ∈ v.valuesChanged v') :
    v'.store.cell slot.owner slot.field ≠ v.store.cell slot.owner slot.field :=
  fun hsame => h (congrArg Cell.stored hsame)

theorem cell_ne_of_mem_shadowsLost {slot : Slot} (h : slot ∈ v.shadowsLost v') :
    v'.store.cell slot.owner slot.field ≠ v.store.cell slot.owner slot.field := by
  intro hsame
  obtain ⟨hsome, hnone⟩ := h
  have hshadow := congrArg Cell.shadow hsame
  rw [show (v'.store.cell slot.owner slot.field).shadow = none from hnone] at hshadow
  rw [show v.store.shadow? slot.owner slot.field = none from hshadow.symm] at hsome
  cases hsome

theorem mem_tokensOpened_iff (h : v.Calm (.ok k)) {slot : Slot} :
    slot ∈ v.tokensOpened v' ↔
      opens k (v.store.cell slot.owner slot.field).stored = true ∧
        (v'.store.cell slot.owner slot.field).stored =
          openedText k (v.store.cell slot.owner slot.field).stored := by
  simp only [tokensOpened, Set.mem_ofPred_eq, FieldCipher.answer_decrypt h.answers]
  rw [opens_iff]
  constructor
  · rintro ⟨value, text, hstored, hmarked, hreveal, hstored'⟩
    refine ⟨⟨value, text, hstored, hmarked, hreveal⟩, ?_⟩
    rw [hstored, hstored', openedText, Option.map_some, hreveal]
    rfl
  · rintro ⟨⟨value, text, hstored, hmarked, hreveal⟩, hstored'⟩
    rw [hstored, openedText, Option.map_some, hreveal] at hstored'
    exact ⟨value, text, hstored, hmarked, hreveal, hstored'⟩

theorem cell_ne_of_mem_tokensOpened (h : v.Calm (.ok k)) {slot : Slot}
    (hslot : slot ∈ v.tokensOpened v') :
    v'.store.cell slot.owner slot.field ≠ v.store.cell slot.owner slot.field := by
  intro hsame
  obtain ⟨hopens, hstored⟩ := (mem_tokensOpened_iff h).1 hslot
  rw [hsame] at hstored
  rw [openedText_eq_self_iff.1 hstored.symm] at hopens
  cases hopens

/-- Where the cells of an owner stay, nothing has changed that could be counted. -/
theorem encard_eq_zero_of_kept {slots : Set Slot} {id : OwnerId}
    (hslots : ∀ slot ∈ slots,
      v'.store.cell slot.owner slot.field ≠ v.store.cell slot.owner slot.field)
    (hsame : ∀ field, v'.store.cell id field = v.store.cell id field) :
    {slot | slot ∈ slots ∧ slot.owner = id}.encard = 0 := by
  rw [Set.encard_eq_zero, Set.eq_empty_iff_forall_notMem]
  rintro slot ⟨hslot, rfl⟩
  exact hslots slot hslot (hsame slot.field)

section Encrypted

variable (ho : v.store.owner? owner.id = some owner)
  (henabled : v.tenancy.enabled owner.tenant = true)
include ho henabled

theorem hashedSkipped_encryptReport :
    ((v.store.encryptReport k v.tenancy owner).hashedSkipped : ENat) =
      {slot | slot ∈ v.hashedValues owner.tenant ∧ slot.owner = owner.id}.encard := by
  have hhead := Store.head?_of_owner? ho
  cases hservice : owner.serviceAccount with
  | true =>
    rw [Store.encryptReport_of_service henabled hservice]
    have hnone : {slot | slot ∈ v.hashedValues owner.tenant ∧ slot.owner = owner.id} = ∅ := by
      rw [Set.eq_empty_iff_forall_notMem]
      rintro slot ⟨⟨hperson, -⟩, hid⟩
      rw [hid, hhead, hservice] at hperson
      cases hperson
    rw [hnone, Set.encard_empty]
    rfl
  | false =>
    rw [Store.encryptReport_of_person henabled hservice]
    have hnames : (owner.fields.toList.map Field.name).Nodup := owner.fields.nodup_keys
    refine Slot.coe_countP_eq_encard hnames fun field => ?_
    rw [Owner.mem_names_iff, Cell.isHashed_iff, ← Store.entry_cell ho]
    constructor
    · rintro ⟨-, hscope, value, hstored, hshaped⟩
      exact ⟨Cell.isSome_entry hstored, hscope, value, hstored, hshaped⟩
    · rintro ⟨-, hscope, hvalue⟩
      exact ⟨hservice ▸ hhead, hscope, hvalue⟩

/-- The changes that are counted of an owner are the values that are replaced and the shadow records
that are swept away. -/
theorem fieldsChanged_encryptReport
    (hcells : ∀ field, Cell.MigratesTo k v.tenancy (owner.tenant, owner.serviceAccount) field
      (v.store.cell owner.id field) (v'.store.cell owner.id field)) :
    ((v.store.encryptReport k v.tenancy owner).fieldsChanged : ENat) =
      {slot | slot ∈ v.valuesChanged v' ∧ slot.owner = owner.id}.encard +
        {slot | slot ∈ v.shadowsLost v' ∧ slot.owner = owner.id}.encard := by
  cases hservice : owner.serviceAccount with
  | true =>
    have hsame : ∀ field, v'.store.cell owner.id field = v.store.cell owner.id field := by
      intro field
      exact (hcells field).stays (.inl hservice)
    rw [Store.encryptReport_of_service henabled hservice,
      encard_eq_zero_of_kept (fun _ => cell_ne_of_mem_valuesChanged) hsame,
      encard_eq_zero_of_kept (fun _ => cell_ne_of_mem_shadowsLost) hsame]
    rfl
  | false =>
    have hencrypts : ∀ field, Cell.EncryptsTo k (v.tenancy.inScope owner.tenant field)
        (v.store.cell owner.id field) (v'.store.cell owner.id field) := by
      intro field
      exact (hcells field).encrypts henabled hservice
    have hnames : (owner.fields.toList.map Field.name).Nodup := owner.fields.nodup_keys
    rw [Store.encryptReport_of_person henabled hservice, Nat.cast_add]
    congr 1
    · refine Slot.coe_countP_eq_encard hnames fun field => ?_
      rw [Owner.mem_names_iff, ← Store.entry_cell ho]
      refine (hencrypts field).stored_ne_iff.trans (and_iff_right_of_imp fun hsome => ?_).symm
      obtain ⟨text, hs⟩ := Option.isSome_iff_exists.1 hsome
      obtain ⟨-, value, hstored, -⟩ := Cell.sealable_eq_some_iff.1 hs
      exact Cell.isSome_entry hstored
    · refine Slot.coe_countP_eq_encard
        (Store.ascending_fields_shadowsOf v.store owner.id).nodup fun field => ?_
      rw [Store.mem_fields_shadowsOf_iff]
      exact (hencrypts field).shadow_lost_iff

end Encrypted

/-- The changes that are counted of an owner that is decrypted are its shadow records and the tokens
that are opened; there are none if it cannot be decrypted. -/
theorem fieldsChanged_decryptReport (h : v.Calm (.ok k))
    (ho : v.store.owner? owner.id = some owner)
    (hcells : ∀ field, v'.store.cell owner.id field = v.store.restored k owner field) :
    ((v.store.decryptReport k owner.id).fieldsChanged : ENat) =
      {slot | slot ∈ v.shadowsLost v' ∧ slot.owner = owner.id}.encard +
        {slot | slot ∈ v.tokensOpened v' ∧ slot.owner = owner.id}.encard := by
  simp only [Store.restored] at hcells
  cases hu : (v.store.reading false (.ok k) owner).unreadable with
  | cons field rest =>
    rw [hu] at hcells
    rw [Store.decryptReport_of_unreadable ho hu,
      encard_eq_zero_of_kept (fun _ => cell_ne_of_mem_shadowsLost) hcells,
      encard_eq_zero_of_kept (fun _ => cell_ne_of_mem_tokensOpened h) hcells]
    rfl
  | nil =>
    rw [hu] at hcells
    rw [Store.decryptReport_of_readable ho hu, Report.restoring, Report.changed,
      Store.decryptChanges_eq_countP ho, Nat.cast_add]
    congr 1
    · refine Slot.coe_countP_eq_encard
        (Store.ascending_fields_shadowsOf v.store owner.id).nodup fun field => ?_
      rw [Store.mem_fields_shadowsOf_iff]
      refine and_congr_right fun _ => iff_of_true ?_ rfl
      exact congrArg Cell.shadow (hcells field)
    · refine Slot.coe_countP_eq_encard
        (Store.ascending_tokenNames v.store owner).nodup fun field => ?_
      rw [mem_tokensOpened_iff h, and_comm, and_congr_left_iff]
      intro hopens
      obtain ⟨value, text, hstored, hmarked, -⟩ := opens_iff.1 hopens
      -- A token has not the shape of a lookup hash, so a shadow record beside it is stale.
      have hlive : (v.store.cell owner.id field).live? = none := by
        apply Cell.live?_of_stale
        rw [hstored, isStale, LookupHash.isShaped_of_marked hmarked]
        rfl
      refine iff_of_true ?_ ((Store.mem_tokenNames_iff ho).2 ⟨hlive, value, hstored, hmarked⟩)
      rw [hcells field]
      exact Cell.stored_decrypted hlive

/-- What has changed belongs to an owner that was worked on. -/
theorem mem_of_changed {ids : List OwnerId} {slots : Set Slot}
    (hoff : v.store.SameOff (fun id _ => id ∈ ids) v'.store)
    (hslots : ∀ slot ∈ slots,
      v'.store.cell slot.owner slot.field ≠ v.store.cell slot.owner slot.field) :
    ∀ slot ∈ slots, slot.owner ∈ ids := by
  intro slot hslot
  by_contra hid
  exact hslots slot hslot (hoff.cells slot.owner slot.field hid)

end Vault

/-! ## Tenants -/

theorem Store.mem_ownersIn_of_head? {s : Store} {tenant : TenantId} {id : OwnerId} {service : Bool}
    (h : s.head? id = some (tenant, service)) : id ∈ s.ownersIn tenant := by
  rw [mem_ownersIn_iff_head?, h]
  rfl

namespace Vault

section Encrypted

variable {tenant : TenantId} (henabled : v.tenancy.enabled tenant = true)
include henabled

theorem ownersVisited_encryptAllReport :
    ((v.store.encryptAllReport k v.tenancy tenant).ownersVisited : ENat) =
      {id | ∃ service, v.store.head? id = some (tenant, service)}.encard := by
  rw [Store.encryptAllReport, if_pos henabled]
  refine Report.coe_count_sum_eq_encard rfl (fun _ _ => rfl)
    (Store.ascending_ownersIn v.store tenant).nodup
    (fun _ hid => Store.mem_ownersIn_of_head? hid.choose_spec) ?_
  intro id hid
  obtain ⟨owner, rfl, ho, rfl⟩ := Store.exists_of_mem_ownersIn hid
  rw [Store.encryptReportAt_of_some _ ho, Store.ownersVisited_encryptReport henabled,
    encard_owner_of_mem]
  · rfl
  · exact ⟨owner.serviceAccount, Store.head?_of_owner? ho⟩

theorem serviceAccountsSkipped_encryptAllReport :
    ((v.store.encryptAllReport k v.tenancy tenant).serviceAccountsSkipped : ENat) =
      {id | v.store.head? id = some (tenant, true)}.encard := by
  rw [Store.encryptAllReport, if_pos henabled]
  refine Report.coe_count_sum_eq_encard rfl (fun _ _ => rfl)
    (Store.ascending_ownersIn v.store tenant).nodup
    (fun _ hhead => Store.mem_ownersIn_of_head? hhead) ?_
  intro id hid
  obtain ⟨owner, rfl, ho, rfl⟩ := Store.exists_of_mem_ownersIn hid
  have hhead := Store.head?_of_owner? ho
  rw [Store.encryptReportAt_of_some _ ho, Store.serviceAccountsSkipped_encryptReport henabled]
  cases hservice : owner.serviceAccount with
  | true =>
    rw [hservice] at hhead
    rw [encard_owner_of_mem hhead]
    rfl
  | false =>
    rw [hservice] at hhead
    rw [encard_owner_of_not_mem]
    · rfl
    · intro hother
      cases hhead.symm.trans hother

theorem hashedSkipped_encryptAllReport :
    ((v.store.encryptAllReport k v.tenancy tenant).hashedSkipped : ENat) =
      (v.hashedValues tenant).encard := by
  rw [Store.encryptAllReport, if_pos henabled]
  refine Report.coe_count_sum_eq_encard rfl (fun _ _ => rfl)
    (Store.ascending_ownersIn v.store tenant).nodup
    (fun _ hslot => Store.mem_ownersIn_of_head? hslot.1) ?_
  intro id hid
  obtain ⟨owner, rfl, ho, rfl⟩ := Store.exists_of_mem_ownersIn hid
  rw [Store.encryptReportAt_of_some _ ho]
  exact hashedSkipped_encryptReport ho henabled

variable (hoff : v.store.SameOff (fun id _ => id ∈ v.store.ownersIn tenant) v'.store)
  (hcells : ∀ id owner, v.store.owner? id = some owner → owner.tenant = tenant → ∀ field,
    Cell.MigratesTo k v.tenancy (owner.tenant, owner.serviceAccount) field
      (v.store.cell id field) (v'.store.cell id field))
include hoff hcells

theorem fieldsChanged_encryptAllReport :
    ((v.store.encryptAllReport k v.tenancy tenant).fieldsChanged : ENat) =
      (v.valuesChanged v').encard + (v.shadowsLost v').encard := by
  rw [Store.encryptAllReport, if_pos henabled]
  refine Report.coe_count_sum_eq_encard_add rfl (fun _ _ => rfl)
    (Store.ascending_ownersIn v.store tenant).nodup
    (mem_of_changed hoff fun _ => cell_ne_of_mem_valuesChanged)
    (mem_of_changed hoff fun _ => cell_ne_of_mem_shadowsLost) ?_
  intro id hid
  obtain ⟨owner, rfl, ho, rfl⟩ := Store.exists_of_mem_ownersIn hid
  rw [Store.encryptReportAt_of_some _ ho]
  exact fieldsChanged_encryptReport ho henabled (hcells owner.id owner ho rfl)

omit henabled in
/-- The store stays as it is if no value was replaced and no shadow record swept away. -/
theorem store_eq_iff_of_migrated :
    v'.store = v.store ↔ v.valuesChanged v' = ∅ ∧ v.shadowsLost v' = ∅ := by
  simp only [Set.eq_empty_iff_forall_notMem]
  constructor
  · intro hstore
    have hsame : ∀ slot : Slot,
        v'.store.cell slot.owner slot.field = v.store.cell slot.owner slot.field := by
      intro slot
      rw [hstore]
    exact ⟨fun slot hslot => cell_ne_of_mem_valuesChanged hslot (hsame slot),
      fun slot hslot => cell_ne_of_mem_shadowsLost hslot (hsame slot)⟩
  · rintro ⟨hvalues, hshadows⟩
    refine hoff.eq_of_owners fun owner ho htenant field => ?_
    exact (hcells owner.id owner ho htenant field).eq_of_kept
      (not_not.1 (hvalues ⟨owner.id, field⟩)) (hshadows ⟨owner.id, field⟩)

end Encrypted

end Vault

namespace Work

variable {tenant : TenantId}

/-- Encrypting a tenant that is enabled counts its owners and what it changes of them. -/
theorem encryptAll_counts (h : v.Calm (.ok k)) (henabled : v.tenancy.enabled tenant = true) :
    ∃ report v', encryptAll tenant v = .ok report v' ∧ v.CountsEncryption v' tenant report ∧
      (report.fieldsChanged = 0 ↔ v'.store = v.store) := by
  obtain ⟨v', hrun, hwrites, hcells⟩ := encryptAll_run_report h tenant
  have hchanged := fieldsChanged_encryptAllReport henabled hwrites.off hcells
  refine ⟨_, v', hrun, ⟨ownersVisited_encryptAllReport henabled,
    serviceAccountsSkipped_encryptAllReport henabled, hashedSkipped_encryptAllReport henabled,
    encryptAll_clean tenant v _ (answer_of_run hrun), hchanged⟩, ?_⟩
  rw [store_eq_iff_of_migrated hwrites.off hcells, ← Nat.cast_eq_zero (R := ENat), hchanged,
    add_eq_zero, Set.encard_eq_zero, Set.encard_eq_zero]

/-- Decrypting a tenant counts what it changes, and skips nothing. -/
theorem decryptAll_counts (h : v.Calm (.ok k)) (tenant : TenantId) :
    ∃ report v', decryptAll tenant v = .ok report v' ∧ v.CountsDecryption v' report ∧
      (report.fieldsChanged = 0 ↔ v'.store = v.store) := by
  obtain ⟨v', hrun, hwrites, hcells⟩ := decryptAll_run_report h tenant
  refine ⟨_, v', hrun, ⟨?_, ?_, ?_⟩, decryptAll_counts_changes h hrun⟩
  · refine Report.coe_count_sum_eq_encard_add rfl (fun _ _ => rfl)
      (Store.ascending_ownersIn v.store tenant).nodup
      (mem_of_changed hwrites.off fun _ => cell_ne_of_mem_shadowsLost)
      (mem_of_changed hwrites.off fun _ => cell_ne_of_mem_tokensOpened h) ?_
    intro id hid
    obtain ⟨owner, rfl, ho, htenant⟩ := Store.exists_of_mem_ownersIn hid
    exact fieldsChanged_decryptReport h ho (hcells owner ho htenant)
  · rw [Report.count_sum_eq_zero_iff rfl fun _ _ => rfl, List.forall_mem_map]
    exact fun id _ => (Store.skips_decryptReport v.store k id).1
  · rw [Report.count_sum_eq_zero_iff rfl fun _ _ => rfl, List.forall_mem_map]
    exact fun id _ => (Store.skips_decryptReport v.store k id).2

/-- **Reports count exactly what has happened**, from every state of the store and with a key at
hand. Encrypting a tenant that is enabled succeeds and reports no failure. It counts the owners of
the tenant, the service accounts among them, and the values in scope of the others that had the
shape of a lookup hash; and as changes it counts the fields whose value is another one after the run
and those that had a shadow record before it and have none after it. Decrypting a tenant succeeds
and counts the fields that had a shadow record and have none after it, and the tokens that have made
way for their texts; it counts nothing as skipped. In both directions no change is counted exactly
if the store is what it was. -/
theorem reports_count_changes (h : v.Calm (.ok k)) (tenant : TenantId) :
    (v.tenancy.enabled tenant = true →
      ∃ report v', encryptAll tenant v = .ok report v' ∧ v.CountsEncryption v' tenant report ∧
        (report.fieldsChanged = 0 ↔ v'.store = v.store)) ∧
    ∃ report v', decryptAll tenant v = .ok report v' ∧ v.CountsDecryption v' report ∧
      (report.fieldsChanged = 0 ↔ v'.store = v.store) :=
  ⟨encryptAll_counts h, decryptAll_counts h tenant⟩

/-- A tenant with one owner: it is counted, and so is what becomes of its address. -/
theorem reports_count_changes_alice :
    let k : Key := ⟨List.replicate 16 7, .inl rfl⟩
    let alice : Owner := ⟨"alice", "acme", false, Registry.empty.file ⟨"email", some "a@acme"⟩⟩
    let v := settled k (({} : Store).putOwner alice) (Tenancy.none.setEnabled "acme" true)
    ∃ report v', encryptAll "acme" v = .ok report v' ∧ report.ownersVisited = 1 ∧
      report.serviceAccountsSkipped = 0 ∧
      (report.fieldsChanged : ENat) = (v.valuesChanged v').encard + (v.shadowsLost v').encard := by
  intro k alice v
  have hcalm : v.Calm (.ok k) := calm_settled k _ _
  obtain ⟨hencrypt, -⟩ := reports_count_changes hcalm "acme"
  obtain ⟨report, v', hrun, hcounts, -⟩ := hencrypt rfl
  have hhead : ∀ id service, v.store.head? id = some ("acme", service) →
      id = "alice" ∧ service = false := by
    intro id service hhead
    obtain ⟨owner, ho, heq⟩ := Option.map_eq_some_iff.1 hhead
    have hid := Store.id_of_owner? ho
    have halice := Store.eq_of_owner?_single ho
    subst halice
    exact ⟨hid.symm, (congrArg Prod.snd heq).symm⟩
  have howners : {id | ∃ service, v.store.head? id = some ("acme", service)} = {"alice"} := by
    ext id
    constructor
    · rintro ⟨service, hid⟩
      exact (hhead id service hid).1
    · rintro rfl
      exact ⟨false, Store.head?_of_owner? (Store.owner?_putOwner_self {} alice)⟩
  have hservices : {id | v.store.head? id = some ("acme", true)} = ∅ := by
    rw [Set.eq_empty_iff_forall_notMem]
    intro id hid
    cases (hhead id true hid).2
  have hvisited := hcounts.owners
  have hskipped := hcounts.serviceAccounts
  rw [howners, Set.encard_singleton] at hvisited
  rw [hservices, Set.encard_empty] at hskipped
  exact ⟨report, v', hrun, Nat.cast_eq_one.1 hvisited, Nat.cast_eq_zero.1 hskipped,
    hcounts.changed⟩

end Work

end FieldVault

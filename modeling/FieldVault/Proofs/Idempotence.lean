/-
A second encryption finds nothing to do.

A cell is settled if there is nothing in it to seal and no stale shadow record beside it. Whatever a
cell was before, encrypting settles it: what was sealed holds a lookup hash, which is neither sealed
again nor makes its shadow record stale; what was not sealed has no text to seal, for the same
reason as before, and was swept. Where all cells are settled, encrypting comes down to reading. So a
second run over a tenant leaves the store alone, draws nothing and reports no change.
-/
import FieldVault.Proofs.Encryption
import FieldVault.Proofs.Report

set_option autoImplicit false

namespace FieldVault

open Vault

variable {k : Key} {r : Except KeyError Key} {v : Vault}

/-! ## Settled cells -/

namespace Cell

variable {c c' : Cell} {inScope : Bool} {text : String}

/-- There is nothing to seal and nothing to sweep. -/
structure Settled (k : Key) (inScope : Bool) (c : Cell) : Prop where
  sealable : c.sealable k inScope = none
  swept : c.swept = c

theorem sealable_congr (h : c.stored = c'.stored) :
    c.sealable k inScope = c'.sealable k inScope := by
  rw [sealable, sealable, h]

theorem swept_swept (c : Cell) : c.swept.swept = c.swept := by
  rw [swept, stored_swept, swept]
  split <;> rfl

/-- A sealed cell holds a lookup hash, and that is not sealed again. -/
theorem Sealed.sealable (h : Sealed k text c c') : c'.sealable k inScope = none := by
  rw [Cell.sealable, h.stored]
  simp only [LookupHash.isShaped_of]
  cases inScope <;> rfl

/-- **Encrypting settles a cell**, whatever it was. -/
theorem EncryptsTo.settled (h : EncryptsTo k inScope c c') : Settled k inScope c' := by
  rcases h.cases with ⟨text, -, hsealed⟩ | ⟨hs, rfl⟩
  · exact ⟨hsealed.sealable, hsealed.swept⟩
  · exact ⟨(sealable_congr (stored_swept c)).trans hs, swept_swept c⟩

theorem Settled.not_stale (h : Settled k inScope c) {shadow : Shadow}
    (hshadow : c.shadow = some shadow) : isStale c.stored = false := by
  cases hstale : isStale c.stored with
  | false => rfl
  | true =>
    have hswept := h.swept
    rw [Cell.swept, if_pos hstale] at hswept
    rw [← hswept] at hshadow
    cases hshadow

end Cell

namespace Work

/-! ## Encrypting settled cells -/

/-- Steps that read and report no change add up to one. -/
theorem tally_reads {α : Type} {work : α → Work Report} {items : List α} (h : v.Calm r)
    (hitem : ∀ a ∈ items, ∀ v', Vault.Reads r v v' →
      ∃ report, ReadsAs r (work a) v' (.ok report) ∧ report.fieldsChanged = 0) :
    ∃ report, ReadsAs r (tally work items) v (.ok report) ∧ report.fieldsChanged = 0 := by
  obtain ⟨reports, hreports, hzero⟩ := ReadsAs.each_of h hitem
  exact ⟨Report.sum reports, hreports.bind (.pure hreports.reads.calm _),
    Report.fieldsChanged_sum_eq_zero_iff.2 hzero⟩

theorem encryptField_reads (h : v.Calm (.ok k)) {owner : Owner} {field : Field} {c : Cell}
    (hstored : c.stored = field.value)
    (hsettled : c.sealable k (v.tenancy.inScope owner.tenant field.name) = none) :
    ∃ report, ReadsAs (.ok k) (encryptField owner field) v (.ok report) ∧
      report.fieldsChanged = 0 := by
  have hasked : inScope owner.tenant field.name v =
      .ok (v.tenancy.inScope owner.tenant field.name) v := rfl
  rw [Cell.sealable, hstored] at hsettled
  rw [encryptField]
  cases hscope : v.tenancy.inScope owner.tenant field.name with
  | false => exact ⟨{}, .bind_run (hasked.trans (by rw [hscope])) (.pure h _), rfl⟩
  | true =>
    rw [hscope] at hasked
    rw [hscope, if_pos rfl] at hsettled
    cases hv : field.value with
    | none => exact ⟨{}, .bind_run hasked (.pure h _), rfl⟩
    | some value =>
      rw [hv] at hsettled
      simp only at hsettled
      cases hshaped : LookupHash.isShaped value with
      | true =>
        refine ⟨{ hashedSkipped := 1 }, .bind_run hasked ?_, rfl⟩
        simp only [if_pos hshaped]
        exact .pure h _
      | false =>
        -- With a key at hand, a token without a text is noted and left.
        have hplain := plainText_reads h owner.id field.name value
        rw [withhold_of_not_key (reveal_ne_key k value)] at hplain
        rw [hshaped, if_neg Bool.false_ne_true] at hsettled
        rw [hsettled] at hplain
        refine ⟨{}, .bind_run hasked ?_, rfl⟩
        simp only [hshaped, if_neg Bool.false_ne_true]
        exact hplain.bind (.pure hplain.reads.calm _)

theorem sweep_reads (h : v.Calm r) {owner : Owner} {shadow : Shadow}
    (hstale : isStale (owner.value shadow.field) = false) :
    ReadsAs r (sweep owner shadow) v (.ok {}) := by
  rw [sweep, hstale, if_neg Bool.false_ne_true]
  exact .pure h _

/-- The cells of an owner are settled, as far as encrypting works on them at all. -/
def OwnerSettled (k : Key) (v : Vault) (owner : Owner) : Prop :=
  v.tenancy.enabled owner.tenant = true → owner.serviceAccount = false → ∀ field,
    Cell.Settled k (v.tenancy.inScope owner.tenant field) (v.store.cell owner.id field)

/-- Migrating an owner settles it. -/
theorem ownerSettled_of_migrated {v' : Vault} {id : OwnerId} {owner owner' : Owner}
    (ho' : v'.store.owner? id = some owner') (htenancy : v'.tenancy = v.tenancy)
    (htenant : owner'.tenant = owner.tenant)
    (hservice : owner'.serviceAccount = owner.serviceAccount)
    (hcells : ∀ field, Cell.MigratesTo k v.tenancy (owner.tenant, owner.serviceAccount) field
      (v.store.cell id field) (v'.store.cell id field)) : OwnerSettled k v' owner' := by
  intro henabled hperson field
  rw [htenancy, htenant] at henabled
  rw [hservice] at hperson
  rw [htenancy, htenant, Store.id_of_owner? ho']
  exact ((hcells field).encrypts henabled hperson).settled

section Passes

variable {owner : Owner} (h : v.Calm (.ok k)) (ho : v.store.owner? owner.id = some owner)
  (hcells : ∀ field, Cell.Settled k (v.tenancy.inScope owner.tenant field)
    (v.store.cell owner.id field))
include h ho hcells

theorem tally_encryptField_reads :
    ∃ report, ReadsAs (.ok k) (tally (encryptField owner) owner.fields.toList) v (.ok report) ∧
      report.fieldsChanged = 0 := by
  refine tally_reads h ?_
  intro f hf v₁ hv₁
  refine encryptField_reads hv₁.calm (c := v.store.cell owner.id f.name) ?_ ?_
  · rw [Cell.stored, Store.entry_cell ho, Owner.mem_fields_iff.1 hf]
    rfl
  · rw [hv₁.tenancy]
    exact (hcells f.name).sealable

theorem tally_sweep_reads :
    ∃ report, ReadsAs (.ok k) (tally (sweep owner) (v.store.shadowsOf owner.id)) v (.ok report) ∧
      report.fieldsChanged = 0 := by
  refine tally_reads h ?_
  -- A stale record would have been swept, so every record that is there belongs to its value.
  intro shadow hshadow v₁ hv₁
  have hstale := (hcells shadow.field).not_stale (Store.mem_shadowsOf_iff.1 hshadow)
  rw [Store.stored_cell ho] at hstale
  exact ⟨{}, sweep_reads hv₁.calm hstale, rfl⟩

end Passes

/-- Encrypting an owner whose cells are settled only reads. -/
theorem encryptOwnerIn_reads (h : v.Calm (.ok k)) {id : OwnerId} {owner : Owner}
    (ho : v.store.owner? id = some owner) (hsettled : OwnerSettled k v owner) :
    ∃ report, ReadsAs (.ok k) (encryptOwnerIn id) v (.ok report) ∧ report.fieldsChanged = 0 := by
  have hid := Store.id_of_owner? ho
  subst hid
  have hload := loadOwner_run h owner.id
  rw [ho] at hload
  have henabled : isEnabled owner.tenant v = .ok (v.tenancy.enabled owner.tenant) v := rfl
  rw [encryptOwnerIn]
  cases he : v.tenancy.enabled owner.tenant with
  | false =>
    rw [he] at henabled
    exact ⟨{}, .bind_run hload (.bind_run henabled (.pure h _)), rfl⟩
  | true =>
    rw [he] at henabled
    by_cases hservice : owner.serviceAccount = true
    · refine ⟨{ ownersVisited := 1, serviceAccountsSkipped := 1 },
        .bind_run hload (.bind_run henabled ?_), rfl⟩
      simp only [if_pos hservice]
      exact .pure h _
    · have hcells := hsettled he (Bool.eq_false_of_not_eq_true hservice)
      obtain ⟨sealed, hseal, hsealed⟩ := tally_encryptField_reads h ho hcells
      -- Sweeping finds the owner and its cells as they were.
      have hreads := hseal.reads
      have hload₁ := loadOwner_run hreads.calm owner.id
      have hshadows := shadowsOf_run hreads.calm owner.id
      rw [hreads.store, ho] at hload₁
      obtain ⟨swept, hsweep, hswept⟩ := tally_sweep_reads hreads.calm
        (by rw [hreads.store, ho]) (by rwa [hreads.store, hreads.tenancy])
      refine ⟨{ ownersVisited := 1 } + sealed + swept,
        .bind_run hload (.bind_run henabled ?_), ?_⟩
      · simp only [if_neg hservice]
        exact hseal.bind (.bind_run hload₁ (.bind_run hshadows
          (hsweep.bind (.pure hsweep.reads.calm _))))
      · change 0 + sealed.fieldsChanged + swept.fieldsChanged = 0
        rw [hsealed, hswept]

/-- Encrypting a tenant all of whose owners are settled only reads. -/
theorem encryptAll_reads (h : v.Calm (.ok k)) {tenant : TenantId}
    (hsettled : ∀ id owner, v.store.owner? id = some owner → owner.tenant = tenant →
      OwnerSettled k v owner) :
    ∃ report, ReadsAs (.ok k) (encryptAll tenant) v (.ok report) ∧ report.fieldsChanged = 0 := by
  have henabled : isEnabled tenant v = .ok (v.tenancy.enabled tenant) v := rfl
  rw [encryptAll]
  cases he : v.tenancy.enabled tenant with
  | false =>
    rw [he] at henabled
    exact ⟨{}, .bind_run henabled (.pure h _), rfl⟩
  | true =>
    rw [he] at henabled
    have hall : ∃ report, ReadsAs (.ok k) (tally encryptOwner (v.store.ownersIn tenant)) v
        (.ok report) ∧ report.fieldsChanged = 0 := by
      refine tally_reads h ?_
      intro id hid v₁ hv₁
      obtain ⟨owner, ho, htenant⟩ := Store.mem_ownersIn_iff.1 hid
      have hsettled₁ : OwnerSettled k v₁ owner := by
        rw [OwnerSettled, hv₁.tenancy, hv₁.store]
        exact hsettled id owner ho htenant
      obtain ⟨report, hreads, hzero⟩ :=
        encryptOwnerIn_reads hv₁.calm (by rw [hv₁.store, ho]) hsettled₁
      exact ⟨report, .transaction hv₁.calm hreads, hzero⟩
    obtain ⟨report, htally, hzero⟩ := hall
    exact ⟨report, .bind_run henabled (.bind_run (ownersIn_run h tenant) htally), hzero⟩

/-- **Encrypting a tenant twice is encrypting it once.** From every state of the store and under all
settings, with a key at hand: a second run leaves the store as the first one left it, reports no
change, and draws neither a vector nor an id. -/
theorem encryptAll_idempotent (h : v.Calm (.ok k)) (tenant : TenantId) :
    ∃ first v₁ second v₂, encryptAll tenant v = .ok first v₁ ∧
      encryptAll tenant v₁ = .ok second v₂ ∧
      v₂.store = v₁.store ∧ second.fieldsChanged = 0 ∧
      v₂.cipher.ivs = v₁.cipher.ivs ∧ v₂.ids = v₁.ids := by
  obtain ⟨first, v₁, hfirst, hwrites, hcells⟩ := encryptAll_run h tenant
  have hsettled : ∀ id owner, v₁.store.owner? id = some owner → owner.tenant = tenant →
      OwnerSettled k v₁ owner := by
    intro id owner ho htenant henabled hservice field
    -- The owner was there before the first run, with the same head.
    obtain ⟨owner₀, ho₀, htenant₀, hservice₀⟩ :=
      Store.exists_owner_of_head?_eq ho (hwrites.off.heads id).symm
    have hcell := hcells id owner₀ ho₀ (htenant₀.trans htenant) field
    rw [hwrites.tenancy] at henabled ⊢
    rw [Cell.MigratesTo, htenant₀, hservice₀, henabled, hservice] at hcell
    rw [Store.id_of_owner? ho]
    exact Cell.EncryptsTo.settled hcell
  obtain ⟨second, hreads, hzero⟩ := encryptAll_reads hwrites.calm hsettled
  exact ⟨first, v₁, second, _, hfirst, hreads.run, hreads.reads.store, hzero, hreads.reads.ivs,
    hreads.reads.ids⟩

/-- The same for a tenant with one owner that has a plain field. -/
theorem encryptAll_idempotent_alice :
    let k : Key := ⟨List.replicate 16 7, .inl rfl⟩
    let alice : Owner := ⟨"alice", "acme", false, Registry.empty.file ⟨"email", some "a@acme"⟩⟩
    let v := settled k (({} : Store).putOwner alice) (Tenancy.none.setEnabled "acme" true)
    let once := after (encryptAll "acme") v
    let twice := after (encryptAll "acme") once
    twice.store = once.store ∧ twice.cipher.ivs = once.cipher.ivs ∧ twice.ids = once.ids := by
  intro k alice v once twice
  obtain ⟨first, v₁, second, v₂, hfirst, hsecond, hstore, -, hivs, hids⟩ :=
    encryptAll_idempotent (calm_settled k _ _) "acme"
  have honce : once = v₁ := after_of_run hfirst
  have htwice : twice = v₂ := by rw [← after_of_run hsecond, ← honce]
  rw [honce, htwice]
  exact ⟨hstore, hivs, hids⟩

end Work

end FieldVault

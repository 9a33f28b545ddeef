/-
What encrypting an owner does to its cells.

Each field is worked on by itself: a value in scope that is no lookup hash and whose plain text can
be had is replaced by its lookup hash, with its token in the shadow record beside it; any other cell
stays. Then the stale shadow records are swept away, which leaves the sealed cells alone, because a
lookup hash is never stale. Cells of other owners are not touched, and with a key at hand none of
this can fail. What is reported is told by the cells of the owner, too: its values in scope are
counted as they are sealed or passed over, and its shadow records as they are swept away.
-/
import FieldVault.Proofs.Reading
import FieldVault.Proofs.Report

set_option autoImplicit false

namespace FieldVault

open Vault

variable {k : Key} {r : Except KeyError Key} {v : Vault}

/-! ## Cells -/

namespace Cell

/-- The text that encrypting seals: the plain text of a value in scope, unless the value has the
shape of a lookup hash or is a token that cannot be opened. -/
def sealable (k : Key) (inScope : Bool) (c : Cell) : Option String :=
  if inScope then
    match c.stored with
    | none => none
    | some value =>
      if LookupHash.isShaped value then none else (reveal (.ok k) value).toOption
  else none

/-- The second cell is the first one with a text sealed in it. A shadow record that was there before
keeps its id. A text that is marked itself is put into the shadow record as it is. -/
structure Sealed (k : Key) (text : String) (c c' : Cell) : Prop where
  entry : c'.entry = some (some (LookupHash.of text))
  shadow : ∃ shadow iv, c'.shadow = some shadow ∧
    shadow.ciphertext = (if Token.isMarked text then text else k.tokenText iv text) ∧
    ∀ old, c.shadow = some old → shadow.id = old.id

/-- What sealing makes of a cell. -/
def SealsTo (k : Key) (inScope : Bool) (c c' : Cell) : Prop :=
  match c.sealable k inScope with
  | some text => Sealed k text c c'
  | none => c' = c

/-- What sealing reports of a cell. -/
def sealReport (k : Key) (inScope : Bool) (c : Cell) : Report :=
  if inScope then
    match c.stored with
    | none => {}
    | some value =>
      if LookupHash.isShaped value then { hashedSkipped := 1 }
      else if (reveal (.ok k) value).toOption.isSome then .oneChanged else {}
  else {}

/-- Encrypting leaves the value of the cell, and the shadow record beside it is stale. -/
def isLeftover (k : Key) (inScope : Bool) (c : Cell) : Bool :=
  (c.sealable k inScope).isNone && isStale c.stored

/-- The cell without its shadow record, if that is stale. -/
def swept (c : Cell) : Cell := if isStale c.stored then { c with shadow := none } else c

/-- What encrypting makes of a cell: it is sealed, or swept. -/
def EncryptsTo (k : Key) (inScope : Bool) (c c' : Cell) : Prop :=
  match c.sealable k inScope with
  | some text => Sealed k text c c'
  | none => c' = c.swept

/-- What encrypting an owner with this head makes of one of its cells: nothing if the tenant has
encryption off or the owner is a service account. -/
def MigratesTo (k : Key) (tenancy : Tenancy) (head : TenantId × Bool) (field : FieldName)
    (c c' : Cell) : Prop :=
  if tenancy.enabled head.1 && !head.2 then EncryptsTo k (tenancy.inScope head.1 field) c c'
  else c' = c

variable {text : String} {c c' : Cell} {shadow : Shadow}

/-- A text is sealed if it is the plain text of a value in scope that is no lookup hash. -/
theorem sealable_eq_some_iff {inScope : Bool} :
    c.sealable k inScope = some text ↔ inScope = true ∧ ∃ value, c.stored = some value ∧
      LookupHash.isShaped value = false ∧ reveal (.ok k) value = .ok text := by
  rw [sealable]
  cases inScope with
  | false => simp
  | true =>
    cases c.stored with
    | none => simp
    | some value =>
      simp only [if_true, true_and, Option.some.injEq, exists_eq_left']
      cases LookupHash.isShaped value with
      | true => simp
      | false => cases reveal (.ok k) value <;> simp [Except.toOption]

theorem sealable_of_stored_none (inScope : Bool) (h : c.stored = none) :
    c.sealable k inScope = none := by
  rw [sealable, h]
  cases inScope <;> rfl

theorem swept_of_shadow_none (h : c.shadow = none) : c.swept = c := by
  obtain ⟨entry, shadow⟩ := c
  simp only at h
  subst h
  rw [swept]
  split <;> rfl

theorem swept_of_live {c : Cell} {shadow : Shadow} (hlive : c.live? = some shadow) :
    c.swept = c := by
  rw [swept, (live?_eq_some_iff.1 hlive).2]
  rfl

/-- A cell without a live shadow record is swept of the one it has. -/
theorem swept_of_not_live {c : Cell} (hlive : c.live? = none) : c.swept = ⟨c.entry, none⟩ := by
  rw [swept]
  cases hstale : isStale c.stored with
  | true => rfl
  | false =>
    rw [if_neg Bool.false_ne_true]
    cases hs : c.shadow with
    | none => rw [← hs]
    | some shadow =>
      rw [live?_eq_some_iff.2 ⟨hs, hstale⟩] at hlive
      cases hlive

theorem entry_swept (c : Cell) : c.swept.entry = c.entry := by
  rw [swept]
  split <;> rfl

theorem shadow_swept (c : Cell) :
    c.swept.shadow = if isStale c.stored then none else c.shadow := by
  rw [swept]
  split <;> rfl

theorem stored_swept (c : Cell) : c.swept.stored = c.stored := by
  rw [Cell.stored, entry_swept, Cell.stored]

/-- A sealed cell holds a lookup hash. -/
theorem Sealed.stored (h : Sealed k text c c') : c'.stored = some (LookupHash.of text) := by
  rw [Cell.stored, h.entry]
  rfl

/-- The shadow record of a sealed cell holds the text, unless that is marked itself. -/
theorem Sealed.reveal (h : Sealed k text c c') (hm : Token.isMarked text = false) :
    ∃ shadow, c'.shadow = some shadow ∧
      FieldVault.reveal (.ok k) shadow.ciphertext = .ok text := by
  obtain ⟨shadow, iv, hshadow, hciphertext, -⟩ := h.shadow
  refine ⟨shadow, hshadow, ?_⟩
  rw [hm, if_neg Bool.false_ne_true] at hciphertext
  rw [hciphertext, reveal_tokenText]

/-- A sealed cell is not stale. -/
theorem Sealed.not_stale (h : Sealed k text c c') : isStale c'.stored = false := by
  rw [h.stored, isStale_of]

theorem Sealed.swept (h : Sealed k text c c') : c'.swept = c' := by
  rw [Cell.swept, h.not_stale]
  rfl

/-- A shadow record that is stale after sealing was stale before, with nothing to seal. -/
theorem SealsTo.stale_iff {inScope : Bool} (h : SealsTo k inScope c c') :
    isStale c'.stored = true ∧ c'.shadow = some shadow ↔
      c.isLeftover k inScope = true ∧ c.shadow = some shadow := by
  rw [SealsTo] at h
  rw [isLeftover]
  cases hs : c.sealable k inScope with
  | some text =>
    simp only [hs] at h
    simp [h.not_stale]
  | none =>
    simp only [hs] at h
    simp [h]

theorem SealsTo.of_stored_none (inScope : Bool) (h : c.stored = none) : SealsTo k inScope c c := by
  rw [SealsTo, sealable_of_stored_none inScope h]

/-- A cell that is encrypted is sealed, or there is nothing to seal and it is swept. -/
theorem EncryptsTo.cases {inScope : Bool} (h : EncryptsTo k inScope c c') :
    (∃ text, c.sealable k inScope = some text ∧ Sealed k text c c') ∨
      (c.sealable k inScope = none ∧ c' = c.swept) := by
  rw [EncryptsTo] at h
  cases hs : c.sealable k inScope with
  | some text =>
    simp only [hs] at h
    exact .inl ⟨text, rfl, h⟩
  | none =>
    simp only [hs] at h
    exact .inr ⟨rfl, h⟩

section Migrated

variable {tenancy : Tenancy} {tenant : TenantId} {service : Bool} {field : FieldName}
  (h : MigratesTo k tenancy (tenant, service) field c c')
include h

/-- Where encryption is on, the cells of an owner that is no service account are encrypted. -/
theorem MigratesTo.encrypts (henabled : tenancy.enabled tenant = true)
    (hservice : service = false) : EncryptsTo k (tenancy.inScope tenant field) c c' := by
  rwa [MigratesTo, henabled, hservice] at h

/-- The cells of a service account stay, and so do all cells where encryption is off. -/
theorem MigratesTo.stays (hpassed : service = true ∨ tenancy.enabled tenant = false) : c' = c := by
  rw [MigratesTo] at h
  rcases hpassed with hservice | hdisabled
  · rwa [hservice, Bool.not_true, Bool.and_false] at h
  · rwa [hdisabled, Bool.false_and] at h

end Migrated

/-- A value in scope that is no lookup hash and can be decrypted is sealed. -/
theorem EncryptsTo.sealed {value : String} (h : EncryptsTo k true c c')
    (hstored : c.stored = some value) (hshaped : LookupHash.isShaped value = false)
    (hreveal : FieldVault.reveal (.ok k) value = .ok text) : Sealed k text c c' := by
  have hsealable : c.sealable k true = some text :=
    sealable_eq_some_iff.2 ⟨rfl, value, hstored, hshaped, hreveal⟩
  rcases h.cases with ⟨text', hs, hsealed⟩ | ⟨hs, -⟩
  · cases hsealable.symm.trans hs
    exact hsealed
  · cases hsealable.symm.trans hs

/-- Sealing and then sweeping is encrypting. -/
theorem SealsTo.swept {inScope : Bool} (h : SealsTo k inScope c c') :
    EncryptsTo k inScope c c'.swept := by
  rw [SealsTo] at h
  rw [EncryptsTo]
  cases hs : c.sealable k inScope with
  | some text =>
    simp only [hs] at h
    simp only
    rwa [h.swept]
  | none =>
    simp only [hs] at h
    simp only
    rw [h]

end Cell

namespace Store

/-- What encrypting an owner reports. -/
def encryptReport (s : Store) (k : Key) (tenancy : Tenancy) (owner : Owner) : Report :=
  if tenancy.enabled owner.tenant then
    if owner.serviceAccount then { ownersVisited := 1, serviceAccountsSkipped := 1 }
    else
      { ownersVisited := 1 } +
        .sum (owner.fields.toList.map fun f =>
          (s.cell owner.id f.name).sealReport k (tenancy.inScope owner.tenant f.name)) +
        .changed ((s.shadowsOf owner.id).countP fun shadow =>
          (s.cell owner.id shadow.field).isLeftover k (tenancy.inScope owner.tenant shadow.field))
  else {}

/-- What encrypting the owner with an id reports. -/
def encryptReportAt (s : Store) (k : Key) (tenancy : Tenancy) (id : OwnerId) : Report :=
  match s.owner? id with
  | none => {}
  | some owner => s.encryptReport k tenancy owner

/-- What encrypting a tenant reports. -/
def encryptAllReport (s : Store) (k : Key) (tenancy : Tenancy) (tenant : TenantId) : Report :=
  if tenancy.enabled tenant then .sum ((s.ownersIn tenant).map (s.encryptReportAt k tenancy))
  else {}

theorem encryptReportAt_of_some {s : Store} {id : OwnerId} {owner : Owner} (tenancy : Tenancy)
    (ho : s.owner? id = some owner) :
    s.encryptReportAt k tenancy id = s.encryptReport k tenancy owner := by
  unfold encryptReportAt
  rw [ho]

/-- What is reported of an owner is told by its cells. -/
theorem encryptReport_of_cells {s t : Store} {owner : Owner} (tenancy : Tenancy)
    (hcells : ∀ field, t.cell owner.id field = s.cell owner.id field) :
    t.encryptReport k tenancy owner = s.encryptReport k tenancy owner := by
  have hshadows : t.shadowsOf owner.id = s.shadowsOf owner.id :=
    shadowsOf_congr fun field => congrArg Cell.shadow (hcells field)
  unfold encryptReport
  simp only [hcells, hshadows]

/-- Sweeping after sealing counts the shadow records that sealing leaves over. -/
theorem countP_stale_of_sealed {s t : Store} {owner owner' : Owner} {inScope : FieldName → Bool}
    (ht : t.owner? owner.id = some owner')
    (hcells : ∀ field, Cell.SealsTo k (inScope field) (s.cell owner.id field)
      (t.cell owner.id field)) :
    (t.shadowsOf owner.id).countP (fun shadow => isStale (owner'.value shadow.field)) =
      (s.shadowsOf owner.id).countP fun shadow =>
        (s.cell owner.id shadow.field).isLeftover k (inScope shadow.field) := by
  rw [List.countP_eq_length_filter, List.countP_eq_length_filter]
  -- Both lists go in the order of the fields, so it is enough that their members are the same.
  congr 1
  refine eq_of_mem_iff_of_ascending (f := Shadow.field)
    (List.Pairwise.sublist (List.filter_sublist.map _) (ascending_fields_shadowsOf t owner.id))
    (List.Pairwise.sublist (List.filter_sublist.map _) (ascending_fields_shadowsOf s owner.id)) ?_
  intro shadow
  rw [List.mem_filter, List.mem_filter, mem_shadowsOf_iff, mem_shadowsOf_iff, ← stored_cell ht,
    and_comm, and_comm (a := s.shadow? owner.id shadow.field = some shadow)]
  exact (hcells shadow.field).stale_iff

end Store

namespace Work

/-! ## One field -/

/-- The plain text of a value; a token that cannot be opened has none. -/
theorem plainText_reads (h : v.Calm r) (owner : OwnerId) (field : FieldName) (value : String) :
    ReadsAs r (plainText owner field value) v (withhold (reveal r value)) := by
  rw [plainText]
  by_cases hm : Token.isMarked value = true
  · rw [if_pos hm]
    have hd := (decrypt_reads h value).outcome
    have hcalm := hd.reads.calm
    refine hd.bind ?_
    cases reveal r value with
    | ok text => exact .pure hcalm _
    | error e =>
      -- Every failure but the want of a key is noted, and the token stays.
      cases e with
      | key e => exact .throw hcalm _
      | _ => exact (note_reads hcalm _).bind (.pure (note_reads hcalm _).reads.calm _)
  · rw [if_neg hm, reveal_of_not_marked r (Bool.eq_false_of_not_eq_true hm)]
    exact .pure h _

/-- Encrypting a text within a vault: a marked one stays, any other becomes a token. -/
theorem encrypt_run (h : v.Calm (.ok k)) (text : String) :
    ∃ token iv c, onCipher (FieldCipher.encrypt text) v = .ok token { v with cipher := c } ∧
      token = (if Token.isMarked text then text else k.tokenText iv text) ∧
      c.keys.Answers (.ok k) := by
  have hanswer : answer (onCipher (FieldCipher.encrypt text)) v =
      .ok (if Token.isMarked text then text else k.tokenText v.cipher.ivs.next.1 text) := by
    rw [answer_onCipher]
    by_cases hm : Token.isMarked text = true
    · rw [if_pos hm]
      exact (FieldCipher.answer_encrypt_of_marked hm).1
    · rw [if_neg hm]
      exact FieldCipher.answer_encrypt h.answers (Bool.eq_false_of_not_eq_true hm)
  have hrun := run_of_answer hanswer
  rw [after_onCipher] at hrun
  exact ⟨_, _, _, hrun, rfl, FieldCipher.answers_after_encrypt h.answers text⟩

/-- The shadow record of a field, or a new one: either way it is of that field, and it is the live
one if there is any. -/
theorem shadowOrNew_run (h : v.Calm r) (owner : OwnerId) (field : FieldName) :
    ∃ id ciphertext v', shadowOrNew owner field v = .ok ⟨id, owner, field, ciphertext⟩ v' ∧
      Follows r v v' ∧ v'.store = v.store ∧
      ∀ old, v.store.shadow? owner field = some old → id = old.id := by
  have hfind := findShadow_run h owner field
  cases hs : v.store.shadow? owner field with
  | some sh =>
    rw [hs] at hfind
    have howner := Store.owner_of_shadow? hs
    have hfield := Store.field_of_shadow? hs
    subst howner
    subst hfield
    refine ⟨sh.id, sh.ciphertext, v, ?_, .refl h, rfl, ?_⟩
    · rw [shadowOrNew, run_bind_of_ok hfind]
      rfl
    · intro old hold
      cases hold
      rfl
  | none =>
    rw [hs] at hfind
    refine ⟨v.ids.next.1, "", { v with ids := v.ids.next.2 }, ?_, ?_, rfl, ?_⟩
    · rw [shadowOrNew, run_bind_of_ok hfind]
      rfl
    · exact ⟨⟨h.answers, h.serving, h.outages⟩, rfl, rfl⟩
    · intro old hold
      cases hold

/-- Sealing a text puts its lookup hash into the field and its token into the shadow record. -/
theorem sealField_run (h : v.Calm (.ok k)) {id : OwnerId} {owner : Owner}
    (ho : v.store.owner? id = some owner) (field : FieldName) (text : String) :
    ∃ v', sealField id field text v = .ok () v' ∧
      Writes (.ok k) (fun id' field' => id' = id ∧ field' = field) v v' ∧
      Cell.Sealed k text (v.store.cell id field) (v'.store.cell id field) := by
  obtain ⟨token, iv, c, hencrypt, htoken, hanswers⟩ := encrypt_run h text
  have hcalm₁ : ({ v with cipher := c } : Vault).Calm (.ok k) := ⟨hanswers, h.serving, h.outages⟩
  obtain ⟨rid, old, v₂, hshadow, hfollows₂, hstore₂, hid⟩ := shadowOrNew_run hcalm₁ id field
  have hcalm₂ := hfollows₂.calm
  -- The record goes into the slot of the field, where it is the live one or none is.
  obtain ⟨s₃, hput, hsets₃⟩ : ∃ s₃, v.store.putShadow ⟨rid, id, field, token⟩ = .ok s₃ ∧
      v.store.Sets id field
        { v.store.cell id field with shadow := some ⟨rid, id, field, token⟩ } s₃ :=
    Store.sets_putShadow ho fun live hlive => (hid live hlive).symm
  have hput₂ : v₂.store.putShadow ⟨rid, id, field, token⟩ = .ok s₃ := by
    rw [hstore₂]
    exact hput
  have hpersist := persistShadow_run hcalm₂ hput₂
  have hcalm₃ : ({ v₂ with store := s₃ } : Vault).Calm (.ok k) := (hcalm₂.follows_store s₃).calm
  -- The owner is still there for its field to be written.
  obtain ⟨owner₃, ho₃, -⟩ := Store.exists_owner_of_head?_eq ho (hsets₃.off.heads id)
  obtain ⟨s₄, hwrite, hsets₄⟩ := Store.sets_writeField ho₃ field (some (LookupHash.of text))
  have hrun₄ := writeField_run hcalm₃ hwrite
  have hsets := hsets₃.trans hsets₄
  refine ⟨{ v₂ with store := s₄ }, ?_, ⟨⟨(hcalm₂.follows_store s₄).calm, ?_, ?_⟩, hsets.off⟩, ?_⟩
  · rw [sealField, run_bind_of_ok hencrypt, run_bind_of_ok hshadow, run_bind_of_ok hpersist]
    exact hrun₄
  · exact hfollows₂.tenancy
  · exact hfollows₂.strict
  · have hcell := hsets.cell
    rw [hsets₃.cell] at hcell
    change Cell.Sealed k text _ (s₄.cell id field)
    rw [hcell]
    refine ⟨rfl, _, iv, rfl, htoken, ?_⟩
    intro live hlive
    exact hid live hlive

/-- Encrypting a field seals its cell, if there is anything to seal. -/
theorem encryptField_run (h : v.Calm (.ok k)) {owner owner' : Owner} {field : Field}
    (ho : v.store.owner? owner.id = some owner')
    (hentry : (v.store.cell owner.id field.name).entry = some field.value) :
    ∃ v', encryptField owner field v = .ok (Cell.sealReport k
        (v.tenancy.inScope owner.tenant field.name) (v.store.cell owner.id field.name)) v' ∧
      Writes (.ok k) (fun id' field' => id' = owner.id ∧ field' = field.name) v v' ∧
      Cell.SealsTo k (v.tenancy.inScope owner.tenant field.name)
        (v.store.cell owner.id field.name) (v'.store.cell owner.id field.name) := by
  have hasked : inScope owner.tenant field.name v =
      .ok (v.tenancy.inScope owner.tenant field.name) v := rfl
  have hstored : (v.store.cell owner.id field.name).stored = field.value := by
    rw [Cell.stored, hentry]
    rfl
  rw [encryptField, run_bind_of_ok hasked]
  simp only [Cell.sealReport, Cell.SealsTo, Cell.sealable, hstored]
  by_cases hscope : v.tenancy.inScope owner.tenant field.name = true
  · rw [if_pos hscope, if_pos hscope, if_pos hscope]
    rcases field.value with _ | value
    · exact ⟨v, rfl, .refl h, rfl⟩
    · simp only
      by_cases hshaped : LookupHash.isShaped value = true
      · rw [if_pos hshaped, if_pos hshaped, if_pos hshaped]
        exact ⟨v, rfl, .refl h, rfl⟩
      · rw [if_neg hshaped, if_neg hshaped, if_neg hshaped]
        have hplain := plainText_reads h owner.id field.name value
        -- With a key at hand, the plain text is there or the value is left alone.
        rw [withhold_of_not_key (reveal_ne_key k value)] at hplain
        have hreads := hplain.reads
        rw [run_bind_of_ok hplain.run]
        cases (reveal (.ok k) value).toOption with
        | none =>
          refine ⟨_, rfl, hreads.writes, ?_⟩
          simp only [hreads.store]
        | some text =>
          have ho' := ho
          rw [← hreads.store] at ho'
          obtain ⟨v', hrun, hwrites, hsealed⟩ := sealField_run hreads.calm ho' field.name text
          refine ⟨v', ?_, hreads.writes.trans hwrites, ?_⟩
          · exact (run_bind_of_ok hrun _).trans rfl
          · rw [hreads.store] at hsealed
            exact hsealed
  · rw [if_neg hscope, if_neg hscope, if_neg hscope]
    exact ⟨v, rfl, .refl h, rfl⟩

/-- Sweeping takes a shadow record away if it is stale. -/
theorem sweep_run (h : v.Calm r) {owner : Owner} {shadow : Shadow}
    (hlive : v.store.shadow? owner.id shadow.field = some shadow)
    (hstored : (v.store.cell owner.id shadow.field).stored = owner.value shadow.field) :
    ∃ v', sweep owner shadow v =
        .ok (if isStale (owner.value shadow.field) then .oneChanged else {}) v' ∧
      Writes r (fun id' field' => id' = owner.id ∧ field' = shadow.field) v v' ∧
      v'.store.cell owner.id shadow.field = (v.store.cell owner.id shadow.field).swept := by
  rw [sweep, Cell.swept, hstored]
  by_cases hstale : isStale (owner.value shadow.field) = true
  · rw [if_pos hstale, if_pos hstale, if_pos hstale]
    have hsets := Store.sets_removeShadow hlive
    refine ⟨_, ?_, h.writes_of_sets hsets, hsets.cell⟩
    exact (run_bind_of_ok (removeShadow_run h shadow) _).trans rfl
  · rw [if_neg hstale, if_neg hstale, if_neg hstale]
    exact ⟨v, rfl, .refl h, rfl⟩

/-! ## Loops -/

/-- Adding reports up runs the loop. -/
theorem tally_run_of_each {α : Type} {work : α → Work Report} {items : List α} {v' : Vault}
    {reports : List Report} (h : each work items v = .ok reports v') :
    tally work items v = .ok (Report.sum reports) v' := by
  rw [tally, run_bind_of_ok h]
  rfl

/-- Encrypting the fields of an owner seals each of its cells. -/
theorem encryptFields_run (h : v.Calm (.ok k)) {owner : Owner}
    (ho : v.store.owner? owner.id = some owner) :
    ∃ v', tally (encryptField owner) owner.fields.toList v = .ok (.sum (owner.fields.toList.map
        fun f => (v.store.cell owner.id f.name).sealReport k
          (v.tenancy.inScope owner.tenant f.name))) v' ∧
      Writes (.ok k) (fun id' _ => id' = owner.id) v v' ∧
      ∀ field, Cell.SealsTo k (v.tenancy.inScope owner.tenant field)
        (v.store.cell owner.id field) (v'.store.cell owner.id field) := by
  obtain ⟨reports, v', hrun, hreports, hwrites, hposts⟩ := each_fields_run owner.id Field.name
    (fun f c c' => Cell.SealsTo k (v.tenancy.inScope owner.tenant f.name) c c')
    (fun f report => Cell.sealReport k (v.tenancy.inScope owner.tenant f.name)
      (v.store.cell owner.id f.name) = report)
    (encryptField owner) h owner.fields.nodup_keys
    (by
      intro f hf v₁ hv₁ hhead hcell
      obtain ⟨owner₁, ho₁, -⟩ := Store.exists_owner_of_head?_eq ho hhead
      have hentry : (v₁.store.cell owner.id f.name).entry = some f.value := by
        rw [hcell, Store.entry_cell ho]
        exact Owner.mem_fields_iff.1 hf
      obtain ⟨v₂, hstep, hwrites, hseals⟩ := encryptField_run hv₁.calm ho₁ hentry
      rw [hcell, hv₁.tenancy] at hstep hseals
      exact ⟨_, v₂, hstep, rfl, hwrites, hseals⟩)
  rw [← List.forall₂_map_left_iff, List.forall₂_eq_eq_eq] at hreports
  rw [hreports]
  refine ⟨v', tally_run_of_each hrun, hwrites.mono fun _ _ ht => ht.1, ?_⟩
  intro field
  by_cases hfield : field ∈ owner.fields.toList.map Field.name
  · obtain ⟨f, hf, rfl⟩ := List.mem_map.1 hfield
    exact hposts f hf
  · -- A field that is not in the record has no value to seal.
    have hentry : owner.entry field = none := by
      rwa [Owner.mem_names_iff, Option.not_isSome_iff_eq_none] at hfield
    rw [hwrites.off.cells owner.id field fun ht => hfield ht.2]
    apply Cell.SealsTo.of_stored_none
    rw [Cell.stored, Store.entry_cell ho, hentry]
    rfl

/-- Sweeping the shadow records of an owner sweeps each of its cells. -/
theorem sweepShadows_run (h : v.Calm r) {owner : Owner}
    (ho : v.store.owner? owner.id = some owner) :
    ∃ v', tally (sweep owner) (v.store.shadowsOf owner.id) v =
        .ok (.changed ((v.store.shadowsOf owner.id).countP fun shadow =>
          isStale (owner.value shadow.field))) v' ∧
      Writes r (fun id' _ => id' = owner.id) v v' ∧
      ∀ field, v'.store.cell owner.id field = (v.store.cell owner.id field).swept := by
  obtain ⟨reports, v', hrun, hreports, hwrites, hposts⟩ := each_fields_run owner.id Shadow.field
    (fun _ c c' => c' = c.swept)
    (fun shadow report => report =
      if isStale (owner.value shadow.field) then .oneChanged else {}) (sweep owner) h
    (Store.ascending_fields_shadowsOf v.store owner.id).nodup
    (by
      intro shadow hshadow v₁ hv₁ hhead hcell
      have hlive : v₁.store.shadow? owner.id shadow.field = some shadow := by
        rw [← Store.mem_shadowsOf_iff.1 hshadow]
        exact congrArg Cell.shadow hcell
      have hstored : (v₁.store.cell owner.id shadow.field).stored = owner.value shadow.field := by
        rw [hcell, Store.stored_cell ho]
      obtain ⟨v₂, hstep, hwrites, hswept⟩ := sweep_run hv₁.calm hlive hstored
      rw [hcell] at hswept
      exact ⟨_, v₂, hstep, rfl, hwrites, hswept⟩)
  have htally := tally_run_of_each hrun
  rw [Report.sum_eq_changed hreports] at htally
  refine ⟨v', htally, hwrites.mono fun _ _ ht => ht.1, ?_⟩
  intro field
  cases hs : v.store.shadow? owner.id field with
  | some shadow =>
    have hfield := Store.field_of_shadow? hs
    subst hfield
    exact hposts shadow (Store.mem_shadowsOf_iff.2 hs)
  | none =>
    have hfield : field ∉ (v.store.shadowsOf owner.id).map Shadow.field := by
      rw [Store.mem_fields_shadowsOf_iff, hs]
      exact Bool.false_ne_true
    rw [hwrites.off.cells owner.id field fun ht => hfield ht.2]
    exact (Cell.swept_of_shadow_none hs).symm

/-! ## One owner -/

/-- **Encrypting an owner** migrates each of its cells, touches no other and reports what the cells
tell; it cannot fail. -/
theorem encryptOwnerIn_run (h : v.Calm (.ok k)) {id : OwnerId} {owner : Owner}
    (ho : v.store.owner? id = some owner) :
    ∃ v', encryptOwnerIn id v = .ok (v.store.encryptReport k v.tenancy owner) v' ∧
      Writes (.ok k) (fun id' _ => id' = id) v v' ∧
      ∀ field, Cell.MigratesTo k v.tenancy (owner.tenant, owner.serviceAccount) field
        (v.store.cell id field) (v'.store.cell id field) := by
  have hid := Store.id_of_owner? ho
  subst hid
  have hload := loadOwner_run h owner.id
  rw [ho] at hload
  have henabled : isEnabled owner.tenant v = .ok (v.tenancy.enabled owner.tenant) v := rfl
  rw [encryptOwnerIn, run_bind_of_ok hload, Store.encryptReport]
  simp only [Cell.MigratesTo]
  rw [run_bind_of_ok henabled]
  cases v.tenancy.enabled owner.tenant with
  | false => exact ⟨v, rfl, .refl h, fun _ => rfl⟩
  | true =>
    rw [if_pos rfl]
    cases owner.serviceAccount with
    | true => exact ⟨v, rfl, .refl h, fun _ => rfl⟩
    | false =>
      rw [if_neg Bool.false_ne_true]
      obtain ⟨v₁, hseal, hwrites₁, hcells₁⟩ := encryptFields_run h ho
      -- The owner is loaded again, with its values as they are now.
      obtain ⟨owner₁, ho₁, -⟩ :=
        Store.exists_owner_of_head?_eq ho (hwrites₁.off.heads owner.id)
      have hid₁ := Store.id_of_owner? ho₁
      have hload₁ := loadOwner_run hwrites₁.calm owner.id
      rw [ho₁] at hload₁
      have hshadows := shadowsOf_run hwrites₁.calm owner.id
      have ho₁' : v₁.store.owner? owner₁.id = some owner₁ := by rw [hid₁, ho₁]
      -- Sweeping looks at the cells as sealing left them.
      obtain ⟨v₂, hsweep, hwrites₂, hcells₂⟩ := sweepShadows_run hwrites₁.calm ho₁'
      rw [hid₁] at hsweep hwrites₂ hcells₂
      rw [Store.countP_stale_of_sealed ho₁ hcells₁] at hsweep
      refine ⟨v₂, ?_, hwrites₁.trans hwrites₂, ?_⟩
      · rw [run_bind_of_ok hseal, run_bind_of_ok hload₁, run_bind_of_ok hshadows]
        exact (run_bind_of_ok hsweep _).trans rfl
      · intro field
        rw [hcells₂]
        exact (hcells₁ field).swept

/-- The same for a unit of work of its own. -/
theorem encryptOwner_run_report (h : v.Calm (.ok k)) {id : OwnerId} {owner : Owner}
    (ho : v.store.owner? id = some owner) :
    ∃ v', encryptOwner id v = .ok (v.store.encryptReport k v.tenancy owner) v' ∧
      Writes (.ok k) (fun id' _ => id' = id) v v' ∧
      ∀ field, Cell.MigratesTo k v.tenancy (owner.tenant, owner.serviceAccount) field
        (v.store.cell id field) (v'.store.cell id field) := by
  obtain ⟨v', hrun, hwrites, hcells⟩ := encryptOwnerIn_run h ho
  exact ⟨v', transaction_run_of_ok h hrun, hwrites, hcells⟩

theorem encryptOwner_run (h : v.Calm (.ok k)) {id : OwnerId} {owner : Owner}
    (ho : v.store.owner? id = some owner) :
    ∃ report v', encryptOwner id v = .ok report v' ∧
      Writes (.ok k) (fun id' _ => id' = id) v v' ∧
      ∀ field, Cell.MigratesTo k v.tenancy (owner.tenant, owner.serviceAccount) field
        (v.store.cell id field) (v'.store.cell id field) := by
  obtain ⟨v', hrun, hwrites, hcells⟩ := encryptOwner_run_report h ho
  exact ⟨_, v', hrun, hwrites, hcells⟩

/-! ## A tenant -/

/-- **Encrypting a tenant** migrates each cell of each of its owners, touches no other and reports
what the owners tell, one after the other. -/
theorem encryptAll_run_report (h : v.Calm (.ok k)) (tenant : TenantId) :
    ∃ v', encryptAll tenant v = .ok (v.store.encryptAllReport k v.tenancy tenant) v' ∧
      Writes (.ok k) (fun id _ => id ∈ v.store.ownersIn tenant) v v' ∧
      ∀ id owner, v.store.owner? id = some owner → owner.tenant = tenant → ∀ field,
        Cell.MigratesTo k v.tenancy (owner.tenant, owner.serviceAccount) field
          (v.store.cell id field) (v'.store.cell id field) := by
  have henabled : isEnabled tenant v = .ok (v.tenancy.enabled tenant) v := rfl
  rw [encryptAll, run_bind_of_ok henabled, Store.encryptAllReport]
  cases he : v.tenancy.enabled tenant with
  | false =>
    refine ⟨v, rfl, .refl h, ?_⟩
    intro id owner ho htenant field
    rw [Cell.MigratesTo, htenant, he]
    rfl
  | true =>
    rw [if_pos rfl, if_pos rfl, run_bind_of_ok (ownersIn_run h tenant)]
    obtain ⟨reports, v', hrun, hreports, hwrites, hposts⟩ := each_owners_run
      (fun id field c' => ∀ owner, v.store.owner? id = some owner →
        Cell.MigratesTo k v.tenancy (owner.tenant, owner.serviceAccount) field
          (v.store.cell id field) c')
      (fun id report => v.store.encryptReportAt k v.tenancy id = report) encryptOwner h
      (Store.ascending_ownersIn v.store tenant).nodup (by
        intro id hid v₁ hv₁ howner hcells₁
        obtain ⟨owner, rfl, ho, -⟩ := Store.exists_of_mem_ownersIn hid
        obtain ⟨v₂, hrun, hwrites, hcells⟩ := encryptOwner_run_report hv₁.calm (howner.trans ho)
        refine ⟨_, v₂, hrun, ?_, hwrites, ?_⟩
        · rw [Store.encryptReportAt_of_some _ ho, hv₁.tenancy,
            Store.encryptReport_of_cells _ hcells₁]
        · intro field owner' ho'
          rw [ho] at ho'
          cases ho'
          rw [← hcells₁, ← hv₁.tenancy]
          exact hcells field)
    rw [← List.forall₂_map_left_iff, List.forall₂_eq_eq_eq] at hreports
    rw [hreports]
    refine ⟨v', tally_run_of_each hrun, hwrites, ?_⟩
    intro id owner ho htenant field
    exact hposts id (Store.mem_ownersIn_iff.2 ⟨owner, ho, htenant⟩) field owner ho

theorem encryptAll_run (h : v.Calm (.ok k)) (tenant : TenantId) :
    ∃ report v', encryptAll tenant v = .ok report v' ∧
      Writes (.ok k) (fun id _ => id ∈ v.store.ownersIn tenant) v v' ∧
      ∀ id owner, v.store.owner? id = some owner → owner.tenant = tenant → ∀ field,
        Cell.MigratesTo k v.tenancy (owner.tenant, owner.serviceAccount) field
          (v.store.cell id field) (v'.store.cell id field) := by
  obtain ⟨v', hrun, hwrites, hcells⟩ := encryptAll_run_report h tenant
  exact ⟨_, v', hrun, hwrites, hcells⟩

end Work

end FieldVault

/-
What reading a field answers, as a function of its cell.

A live shadow record is verified against the value in the record; anything else is served as it
stands, with a token in it opened. Where a token cannot be opened, a strict vault fails and any
other serves the token.
-/
import FieldVault.Proofs.LookupHash
import FieldVault.Proofs.Vault
import FieldVault.Reading

set_option autoImplicit false

namespace FieldVault

variable {r : Except KeyError Key} {strict : Bool} {ref : FieldRef} {v : Vault}

/-! ## One cell -/

/-- The shadow record beside a lookup hash is not stale. -/
theorem isStale_of (text : String) : isStale (some (LookupHash.of text)) = false := by
  rw [isStale, LookupHash.isShaped_of]
  rfl

/-- It is not stale beside a value of that shape, and beside nothing else. -/
theorem isStale_eq_false_iff {stored : Option String} :
    isStale stored = false ↔ ∃ hash, stored = some hash ∧ LookupHash.isShaped hash = true := by
  cases stored with
  | none =>
    constructor
    · intro h
      cases h
    · rintro ⟨hash, hhash, -⟩
      cases hhash
  | some value =>
    rw [isStale, Bool.not_eq_false']
    constructor
    · intro h
      exact ⟨value, rfl, h⟩
    · rintro ⟨hash, hhash, h⟩
      cases hhash
      exact h

/-- Beside the lookup hash of its text, a ciphertext verifies. -/
theorem verified_of {ciphertext text : String} (h : reveal r ciphertext = .ok text) :
    verified r ref (some (LookupHash.of text)) ciphertext = .ok text := by
  simp only [verified, h, LookupHash.isOf_of, if_true]

/-- The plain value of a stored one. A token that cannot be opened is a failure if the vault is
strict, and is served as it is if not. -/
def storedText (strict : Bool) (r : Except KeyError Key) : Option String →
    Except Error (Option String)
  | none => .ok none
  | some value =>
    if strict then (reveal r value).map some
    else .ok (some ((reveal r value).toOption.getD value))

namespace Cell

/-- The shadow record, unless it is stale. -/
def live? (c : Cell) : Option Shadow := c.shadow.filter fun _ => !isStale c.stored

/-- What reading the field of a cell answers. -/
def read (strict : Bool) (r : Except KeyError Key) (ref : FieldRef) (c : Cell) :
    Except Error (Option String) :=
  match c.live? with
  | some shadow => (verified r ref c.stored shadow.ciphertext).map some
  | none => storedText strict r c.stored

theorem live?_eq_some_iff {c : Cell} {shadow : Shadow} :
    c.live? = some shadow ↔ c.shadow = some shadow ∧ isStale c.stored = false := by
  rw [live?, Option.filter_eq_some_iff, Bool.not_eq_true']

theorem live?_of_stale {c : Cell} (h : isStale c.stored = true) : c.live? = none := by
  rw [live?, h]
  cases c.shadow <;> rfl

theorem read_of_live {c : Cell} {shadow : Shadow} (h : c.live? = some shadow) :
    c.read strict r ref = (verified r ref c.stored shadow.ciphertext).map some := by
  rw [read, h]

/-- A ciphertext beside the lookup hash of its text reads as the text. -/
theorem read_of_hash {c : Cell} {shadow : Shadow} {text : String} (hshadow : c.shadow = some shadow)
    (hstored : c.stored = some (LookupHash.of text))
    (hreveal : reveal r shadow.ciphertext = .ok text) : c.read strict r ref = .ok (some text) := by
  have hlive : c.live? = some shadow :=
    live?_eq_some_iff.2 ⟨hshadow, hstored ▸ isStale_of text⟩
  rw [read_of_live hlive, hstored, verified_of hreveal]
  rfl

theorem read_of_not_live {c : Cell} (h : c.live? = none) :
    c.read strict r ref = storedText strict r c.stored := by
  rw [read, h]

/-- A value that is no token is served as it stands. -/
theorem storedText_of_not_marked {value : String} (h : Token.isMarked value = false) :
    storedText strict r (some value) = .ok (some value) := by
  rw [storedText, reveal_of_not_marked r h]
  cases strict <;> rfl

/-- A field without a value reads as none. -/
theorem read_of_stored_none {c : Cell} (h : c.stored = none) : c.read strict r ref = .ok none := by
  rw [read_of_not_live (live?_of_stale (by rw [h]; rfl)), h]
  rfl

/-- A field fails to be read for its value or for want of a key. -/
theorem read_error {c : Cell} {e : Error} (h : c.read strict r ref = .error e) :
    e.isOfValue = true ∨ ∃ e', e = .key e' ∧ r = .error e' := by
  cases hl : c.live? with
  | some shadow =>
    rw [read_of_live hl] at h
    cases hv : verified r ref c.stored shadow.ciphertext with
    | ok text => simp [hv, Except.map] at h
    | error e' =>
      rw [hv] at h
      cases h
      rcases verified_error hv with rfl | ⟨e', rfl, he'⟩
      · exact .inl rfl
      · exact reveal_error he'
  | none =>
    rw [read_of_not_live hl] at h
    cases hs : c.stored with
    | none => simp [hs, storedText] at h
    | some value =>
      rw [hs, storedText] at h
      split at h
      · cases hr : reveal r value with
        | ok text => simp [hr, Except.map] at h
        | error e' =>
          rw [hr] at h
          cases h
          exact reveal_error hr
      · cases h

/-- The want of a key is the failure that the provider gives. -/
theorem key_of_read_error {c : Cell} {e : KeyError} (h : c.read strict r ref = .error (.key e)) :
    r = .error e := by
  rcases read_error h with he | ⟨e', he, hr⟩
  · cases he
  · cases he
    exact hr

/-- With a key at hand, no read fails for want of one. -/
theorem read_ne_key (k : Key) (c : Cell) (e : KeyError) :
    c.read strict (.ok k) ref ≠ .error (.key e) := by
  intro h
  cases key_of_read_error h

/-- Two cells that every read takes for the same: they have the same place in the record and the
same value, and where reading fails both or none fail for a shadow record. -/
structure Alike (strict : Bool) (r : Except KeyError Key) (ref : FieldRef) (c d : Cell) :
    Prop where
  present : c.entry.isSome = d.entry.isSome
  read : c.read strict r ref = d.read strict r ref
  live : ∀ e, c.read strict r ref = .error e → c.live?.isSome = d.live?.isSome

theorem Alike.refl (c : Cell) : Alike strict r ref c c := ⟨rfl, rfl, fun _ _ => rfl⟩

end Cell

/-! ## Reading work -/

namespace Work

open Vault

variable (h : v.Calm r)
include h

theorem isStrict_reads : ReadsAs r isStrict v (.ok v.strict) := .of_run h rfl

/-- Where there is no live shadow record, the stored value is read. -/
theorem readStored_reads (stored : Option String) :
    ReadsAs r (readStored stored) v (storedText v.strict r stored) := by
  cases stored with
  | none => exact .pure h none
  | some value =>
    refine (isStrict_reads h).bind ?_
    rw [show after isStrict v = v from rfl]
    rw [storedText]
    -- A strict vault decrypts and may fail; any other cannot.
    by_cases hs : v.strict = true
    · have hd := decrypt_reads h value
      rw [if_pos hs, if_pos hs]
      cases hr : reveal r value with
      | error e =>
        rw [hr] at hd
        exact hd.bind_error _
      | ok text =>
        rw [hr] at hd
        exact hd.bind (.pure hd.reads.calm _)
    · obtain ⟨htext, hkeys, hivs⟩ := FieldCipher.decryptOpen_eq h.answers value
      rw [if_neg hs, if_neg hs, ← htext]
      have hd : ReadsAs r (withCipher (FieldCipher.decryptOpen value)) v
          (.ok (FieldCipher.decryptOpen value v.cipher).1) :=
        ⟨rfl, .of_cipher h hkeys hivs⟩
      exact hd.bind (.pure hd.reads.calm _)

/-- A shadow record is verified against the value of its field. -/
theorem verifyShadow_reads (owner : Owner) (shadow : Shadow) :
    ReadsAs r (verifyShadow owner shadow) v
      ((verified r ⟨owner.tenant, owner.id, shadow.field⟩ (owner.value shadow.field)
        shadow.ciphertext).map fun text => (shadow, text)) := by
  have hd : ReadsAs r (onCipher (FieldCipher.decryptVerified
      ⟨owner.tenant, owner.id, shadow.field⟩ (owner.value shadow.field) shadow.ciphertext)) v
      (verified r ⟨owner.tenant, owner.id, shadow.field⟩ (owner.value shadow.field)
        shadow.ciphertext) := by
    refine ⟨?_, ?_⟩
    · rw [answer_onCipher, FieldCipher.answer_decryptVerified h.answers]
    · rw [after_onCipher, FieldCipher.after_decryptVerified]
      exact .of_cipher h (FieldCipher.answers_after_decrypt h.answers _)
        (FieldCipher.ivs_after_decrypt shadow.ciphertext v.cipher)
  cases hv : verified r ⟨owner.tenant, owner.id, shadow.field⟩ (owner.value shadow.field)
      shadow.ciphertext with
  | error e =>
    rw [hv] at hd
    exact hd.bind_error _
  | ok text =>
    rw [hv] at hd
    exact hd.bind (.pure hd.reads.calm _)

theorem viewOwner_reads {id : OwnerId} {owner : Owner} (ho : v.store.owner? id = some owner) :
    ReadsAs r (viewOwner id) v (.ok ⟨owner, v.store.shadowsOf id⟩) := by
  have hr : readOwner id v = .ok (some ⟨owner, v.store.shadowsOf id⟩) v := by
    rw [readOwner_run h, Store.view?, ho]
    rfl
  exact .of_run h ((run_bind_of_ok hr _).trans rfl)

theorem viewOwner_reads_of_none {id : OwnerId} (ho : v.store.owner? id = none) :
    ReadsAs r (viewOwner id) v (.error (.store (.ownerNotFound id))) := by
  have hr : readOwner id v = .ok none v := by
    rw [readOwner_run h, Store.view?, ho]
    rfl
  refine (ReadsAs.of_run h hr).bind ?_
  rw [after_of_run hr]
  exact .throw h _

/-! ## One field -/

/-- **Reading a field** answers what its cell reads. -/
theorem loadField_reads {id : OwnerId} {owner : Owner} (ho : v.store.owner? id = some owner)
    (field : FieldName) :
    ReadsAs r (loadField id field) v
      ((v.store.cell id field).read v.strict r ⟨owner.tenant, id, field⟩) := by
  have hview := viewOwner_reads h ho
  have hcalm := hview.reads.calm
  have hstored : (v.store.cell id field).stored = owner.value field := Store.stored_cell ho
  have hlive : (v.store.cell id field).live? =
      ((⟨owner, v.store.shadowsOf id⟩ : OwnerView).shadow? field).filter
        fun _ => !isStale (owner.value field) := by
    rw [Store.shadow?_view, Cell.live?, hstored]
    rfl
  refine hview.bind ?_
  rw [Cell.read, hlive, hstored, ← hview.reads.strict]
  cases hs : ((⟨owner, v.store.shadowsOf id⟩ : OwnerView).shadow? field).filter
      fun _ => !isStale (owner.value field) with
  | none =>
    simp only [hs]
    exact readStored_reads hcalm _
  | some shadow =>
    simp only [hs]
    -- The record is the one of this field, so the place it is verified at is the same.
    rw [hlive.symm, Cell.live?_eq_some_iff] at hs
    have hfield : shadow.field = field := Store.field_of_shadow? hs.1
    have hid : owner.id = id := Store.id_of_owner? ho
    have hverify := verifyShadow_reads hcalm owner shadow
    rw [hfield, hid] at hverify
    refine hverify.outcome.bind ?_
    have hcalm' := hverify.outcome.reads.calm
    cases hv : verified r ⟨owner.tenant, id, field⟩ (owner.value field) shadow.ciphertext with
    | ok text => exact .pure hcalm' _
    | error e =>
      -- A failed verification is noted and thrown again; the want of a key is only thrown.
      rcases verified_error hv with rfl | ⟨e', rfl, -⟩
      · exact (note_reads hcalm' _).bind (.throw (note_reads hcalm' _).reads.calm _)
      · exact .throw hcalm' _

theorem loadField_reads_of_none {id : OwnerId} (ho : v.store.owner? id = none)
    (field : FieldName) :
    ReadsAs r (loadField id field) v (.error (.store (.ownerNotFound id))) :=
  (viewOwner_reads_of_none h ho).bind_error _

end Work

end FieldVault

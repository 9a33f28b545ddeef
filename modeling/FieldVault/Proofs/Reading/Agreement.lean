/-
Reading a field and reading its owner tell the same.

The one is a look-up of a cell, the other goes twice through the record, collects what it serves and
skips in the second pass what it saw in the first. They agree on every field: it is listed as
unreadable exactly if reading it alone fails, and otherwise stands in the record for what reading it
alone answers. The want of a key is the one failure that ends the reading of an owner. It can only
be the failure that the provider always gives, so it does not matter which field meets it first.
-/
import FieldVault.Proofs.Reading.Owner

set_option autoImplicit false

namespace FieldVault

open Vault

variable {r : Except KeyError Key} {strict : Bool} {v : Vault}

/-! ## Records that are served -/

theorem Owner.names_congr {o o' : Owner}
    (h : ∀ field, (o.entry field).isSome = (o'.entry field).isSome) :
    o.fields.toList.map Field.name = o'.fields.toList.map Field.name := by
  refine Ascending.eq_of_mem_iff o.fields.ascending_keys o'.fields.ascending_keys ?_
  intro field
  rw [mem_names_iff, mem_names_iff, h]

namespace Store

variable {s : Store} {owner : Owner}

theorem names_reading (ho : s.owner? owner.id = some owner) :
    (s.reading strict r owner).owner.fields.toList.map Field.name =
      owner.fields.toList.map Field.name := by
  apply Owner.names_congr
  intro field
  rw [entry_reading ho, Option.isSome_map]

/-- A field is served for what reading it answers, and is empty where that fails. -/
theorem value_reading (ho : s.owner? owner.id = some owner) (field : FieldName) :
    (s.reading strict r owner).owner.value field =
      ((s.cell owner.id field).read strict r ⟨owner.tenant, owner.id, field⟩).toOption.getD
        none := by
  rw [Owner.value_eq_join, entry_reading ho]
  cases he : owner.entry field with
  | some value => rfl
  | none =>
    have hstored : (s.cell owner.id field).stored = none := by
      rw [Cell.stored, entry_cell ho, he]
      rfl
    rw [Cell.read_of_stored_none hstored]
    rfl

/-- No field is listed twice: the two passes list different fields, each in ascending order. -/
theorem nodup_unreadable (ho : s.owner? owner.id = some owner) :
    (s.reading strict r owner).unreadable.Nodup := by
  rw [unreadable_reading]
  refine List.Nodup.append ((ascending_liveNames s owner).filter _).nodup
    ((ascending_tokenNames s owner).filter _).nodup ?_
  intro field hlive htoken
  have hsome := (mem_liveNames_iff ho).1 (List.mem_filter.1 hlive).1
  have hnone := ((mem_tokenNames_iff ho).1 (List.mem_filter.1 htoken).1).1
  rw [hnone] at hsome
  cases hsome

theorem serve_error {field : FieldName} {e : Error}
    (h : s.serve strict r owner field = .error e) :
    ∃ e', e = .key e' ∧ (s.cell owner.id field).read strict r ⟨owner.tenant, owner.id, field⟩ =
      .error (.key e') := by
  rw [serve] at h
  cases hr : (s.cell owner.id field).read strict r ⟨owner.tenant, owner.id, field⟩ with
  | ok value =>
    rw [hr] at h
    cases h
  | error e' =>
    rw [hr] at h
    cases e' with
    | key e' =>
      cases h
      exact ⟨e', rfl, rfl⟩
    | _ => cases h

end Store

/-! ## The agreement -/

namespace Work

/-- Reading an owner fails for want of a key if one of its fields does; otherwise it succeeds. -/
theorem loadOwnerPlain_cases (h : v.Calm r) {owner : Owner}
    (ho : v.store.owner? owner.id = some owner) :
    (∃ e field, answer (loadOwnerPlain owner.id) v = .error (.key e) ∧
      (v.store.cell owner.id field).read v.strict r ⟨owner.tenant, owner.id, field⟩ =
        .error (.key e)) ∨
    ((∀ field e, (v.store.cell owner.id field).read v.strict r ⟨owner.tenant, owner.id, field⟩ ≠
        .error (.key e)) ∧
      answer (loadOwnerPlain owner.id) v = .ok (v.store.reading v.strict r owner)) := by
  rw [(loadOwnerPlain_reads h ho).answer]
  cases hfails : (v.store.liveNames owner ++ v.store.tokenNames owner).filter fun field =>
      (v.store.serve v.strict r owner field).toOption.isNone with
  | cons field rest =>
    obtain ⟨-, e, he, hmapM⟩ := mapM_of_filter_cons hfails
    obtain ⟨e', rfl, hfield⟩ := Store.serve_error he
    refine .inl ⟨e', field, ?_, hfield⟩
    rw [hmapM]
    rfl
  | nil =>
    -- A field that neither pass comes to stands as it reads.
    have hkey : ∀ field e, (v.store.cell owner.id field).read v.strict r
        ⟨owner.tenant, owner.id, field⟩ ≠ .error (.key e) := by
      intro field e he
      by_cases hnames : field ∈ v.store.liveNames owner ++ v.store.tokenNames owner
      · have hserved := List.filter_eq_nil_iff.1 hfails field hnames
        rw [Store.serve, he] at hserved
        exact hserved rfl
      · rw [Store.read_of_not_mem_names ho hnames] at he
        cases he
    exact .inr ⟨hkey, Store.mapM_serve hkey _⟩

/-- **Reading a field and reading its owner agree**, in strict and in lenient vaults, whether a key
is at hand or the provider always fails in one way. The owner fails to be read for want of a key
exactly if one of its fields does. Otherwise it is served: under its own head, with the names of its
fields, and with no name listed twice as unreadable; a field that reads as a value by itself is not
listed and has that value, and a field that fails to be read is listed and has none. -/
theorem loadField_agrees (h : v.Calm r) {id : OwnerId} {owner : Owner}
    (ho : v.store.owner? id = some owner) :
    (∀ e, answer (loadOwnerPlain id) v = .error (.key e) ↔
      ∃ field, answer (loadField id field) v = .error (.key e)) ∧
    ((∀ e, answer (loadOwnerPlain id) v ≠ .error (.key e)) →
      ∃ served : Reading, answer (loadOwnerPlain id) v = .ok served ∧
        served.owner.id = owner.id ∧ served.owner.tenant = owner.tenant ∧
        served.owner.serviceAccount = owner.serviceAccount ∧
        served.owner.fields.toList.map Field.name = owner.fields.toList.map Field.name ∧
        served.unreadable.Nodup ∧
        ∀ field,
          (∀ value, answer (loadField id field) v = .ok value ↔
            field ∉ served.unreadable ∧ served.owner.value field = value) ∧
          ((∃ e, answer (loadField id field) v = .error e ∧ e.isOfValue = true) ↔
            field ∈ served.unreadable ∧ served.owner.value field = none)) := by
  have hid := Store.id_of_owner? ho
  subst hid
  simp only [(loadField_reads h ho _).answer]
  rcases loadOwnerPlain_cases h ho with ⟨e, field, howner, hfield⟩ | ⟨hkey, howner⟩
  · rw [howner]
    refine ⟨?_, fun hno => absurd rfl (hno e)⟩
    intro e'
    constructor
    · intro heq
      cases heq
      exact ⟨field, hfield⟩
    · -- Every want of a key is the same one.
      rintro ⟨field', hfield'⟩
      have hsame := (Cell.key_of_read_error hfield).symm.trans (Cell.key_of_read_error hfield')
      rw [Except.error.inj hsame]
  · rw [howner]
    refine ⟨?_, ?_⟩
    · intro e
      constructor
      · intro heq
        cases heq
      · rintro ⟨field, hfield⟩
        exact absurd hfield (hkey field e)
    · intro _
      obtain ⟨hid, htenant, hservice⟩ := Store.head_reading v.store v.strict r owner
      refine ⟨_, rfl, hid, htenant, hservice, Store.names_reading ho, Store.nodup_unreadable ho, ?_⟩
      intro field
      rw [Store.mem_unreadable_iff ho, Store.isWithheld, Store.value_reading ho]
      cases hr : (v.store.cell owner.id field).read v.strict r
          ⟨owner.tenant, owner.id, field⟩ with
      | ok value => simp [Except.toOption]
      | error e =>
        have hvalue : e.isOfValue = true := by
          rcases Cell.read_error hr with hvalue | ⟨e', he, -⟩
          · exact hvalue
          · exact absurd (he ▸ hr) (hkey field e')
        simp [Except.toOption, hvalue]

/-- In a strict vault, an owner whose only field is marked but no token is served without it. -/
theorem loadField_agrees_alice :
    let k : Key := ⟨List.replicate 16 7, .inl rfl⟩
    let alice : Owner := ⟨"alice", "acme", false, Registry.empty.file ⟨"email", some "$$$"⟩⟩
    let v : Vault := { settled k (({} : Store).putOwner alice) .none with strict := true }
    ∃ served : Reading, answer (loadOwnerPlain "alice") v = .ok served ∧
      "email" ∈ served.unreadable ∧ served.owner.value "email" = none := by
  intro k alice v
  have ho : v.store.owner? "alice" = some alice := Store.owner?_putOwner_self {} alice
  have hfails : answer (loadField "alice" "email") v =
      .error (.malformedToken (Token.Fault.tooShort 0).message) := rfl
  obtain ⟨-, hserved⟩ := loadField_agrees ((calm_settled k _ _).with_strict true) ho
  have hkey : ∀ e, answer (loadOwnerPlain "alice") v ≠ .error (.key e) := by
    rintro e ⟨⟩
  obtain ⟨served, hread, -, -, -, -, -, hfield⟩ := hserved hkey
  exact ⟨served, hread, (hfield "email").2.1 ⟨_, hfails, rfl⟩⟩

end Work

end FieldVault

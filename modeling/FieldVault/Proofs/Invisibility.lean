/-
Encrypting owners cannot be noticed by reading.

Whatever state a cell is in, what encrypting makes of it reads as it did: a sealed cell is verified
to the text that was served before, and sweeping takes away only what no read looks at. There is one
exception, and it is a hypothesis here. A token may hold a text that is marked as a token itself;
such a text is put into the shadow record as it stands, and is opened once more when it is read.
Cells that fail to be read are left in place, so they fail in the same way and are listed in the
same order.
-/
import FieldVault.Proofs.Encryption
import FieldVault.Proofs.Reading.Owner

set_option autoImplicit false

namespace FieldVault

open Vault

variable {k : Key} {v : Vault}

/-! ## One cell -/

namespace Cell

variable {strict : Bool} {ref : FieldRef} {c c' : Cell} {text : String}

/-- A sealed cell is live and verifies to its text. -/
theorem Sealed.read (h : Sealed k text c c') (hm : Token.isMarked text = false) :
    c'.read strict (.ok k) ref = .ok (some text) := by
  obtain ⟨shadow, hshadow, hreveal⟩ := h.reveal hm
  exact read_of_hash hshadow h.stored hreveal

theorem live?_swept (c : Cell) : c.swept.live? = c.live? := by
  cases hl : c.live? with
  | some shadow => rw [swept_of_live hl, hl]
  | none =>
    rw [swept_of_not_live hl]
    rfl

theorem Alike.swept (c : Cell) : Alike strict (.ok k) ref c c.swept := by
  refine ⟨by rw [entry_swept], ?_, fun _ _ => by rw [live?_swept]⟩
  rw [Cell.read, Cell.read, live?_swept, Cell.stored, Cell.stored, entry_swept]

/-- What is sealed is the text that every read of the cell answers. -/
theorem read_of_sealable (strict : Bool) (ref : FieldRef) {inScope : Bool}
    (h : c.sealable k inScope = some text) :
    ∃ value, inScope = true ∧ c.stored = some value ∧ reveal (.ok k) value = .ok text ∧
      c.read strict (.ok k) ref = .ok (some text) := by
  obtain ⟨hscope, value, hs, hshaped, hreveal⟩ := sealable_eq_some_iff.1 h
  -- A value that is no hash makes the shadow record stale, so the value is what is read.
  have hstale : isStale c.stored = true := by
    rw [hs, isStale, hshaped]
    rfl
  refine ⟨value, hscope, hs, hreveal, ?_⟩
  rw [read_of_not_live (live?_of_stale hstale), hs, storedText, hreveal]
  cases strict <;> rfl

/-- **Encrypting a cell leaves what it reads.** The hypothesis is that a token in scope does not
hold a text that is marked itself. -/
theorem EncryptsTo.alike {inScope : Bool} (h : EncryptsTo k inScope c c')
    (hplain : inScope = true → ∀ value text, c.stored = some value →
      Token.isMarked value = true → reveal (.ok k) value = .ok text →
        Token.isMarked text = false) :
    Alike strict (.ok k) ref c c' := by
  rcases h.cases with ⟨text, hs, hsealed⟩ | ⟨-, rfl⟩
  · obtain ⟨value, hscope, hstored, hreveal, hread⟩ := read_of_sealable strict ref hs
    -- Only a token can open to a marked text, and that is what the hypothesis excludes.
    have hm : Token.isMarked text = false := by
      cases hmarked : Token.isMarked value with
      | true => exact hplain hscope value text hstored hmarked hreveal
      | false =>
        rw [reveal_of_not_marked _ hmarked] at hreveal
        cases hreveal
        exact hmarked
    refine ⟨?_, ?_, ?_⟩
    · rw [hsealed.entry, Option.join_eq_some_iff.1 hstored]
      rfl
    · rw [hread, hsealed.read hm]
    · intro e he
      rw [hread] at he
      cases he
  · exact .swept c

end Cell

/-! ## Vaults -/

namespace Vault

/-- No token in scope that stands in the record of an owner opens to a text that is marked as a
token itself. -/
def OpensPlain (v : Vault) (owner : Owner) : Prop :=
  ∀ field value text, v.tenancy.inScope owner.tenant field = true →
    owner.value field = some value → Token.isMarked value = true →
    answer (FieldCipher.decrypt value) v.cipher = .ok text → Token.isMarked text = false

/-- The second vault answers every read as the first one, be they strict or lenient. -/
def ReadsLike (v w : Vault) : Prop :=
  ∀ strict id,
    answer (Work.loadOwnerPlain id) { w with strict } =
      answer (Work.loadOwnerPlain id) { v with strict } ∧
    ∀ field, answer (Work.loadField id field) { w with strict } =
      answer (Work.loadField id field) { v with strict }

/-- Writing that leaves the cells it touches alike cannot be noticed by reading. -/
theorem Writes.readsLike {w : Vault} {touched : OwnerId → FieldName → Prop} (h : v.Calm (.ok k))
    (hw : Writes (.ok k) touched v w)
    (hcells : ∀ strict id field tenant, touched id field →
      Cell.Alike strict (.ok k) ⟨tenant, id, field⟩ (v.store.cell id field)
        (w.store.cell id field)) :
    v.ReadsLike w := by
  intro strict id
  have halike : ∀ field tenant, Cell.Alike strict (.ok k) ⟨tenant, id, field⟩
      (v.store.cell id field) (w.store.cell id field) := by
    intro field tenant
    by_cases ht : touched id field
    · exact hcells strict id field tenant ht
    · rw [hw.off.cells id field ht]
      exact .refl _
  have hv' := h.with_strict strict
  have hw' := hw.calm.with_strict strict
  have hhead := hw.off.heads id
  exact ⟨Work.answer_loadOwnerPlain_congr hv' hw' rfl hhead halike, fun field =>
    Work.answer_loadField_congr hv' hw' rfl hhead fun tenant => (halike field tenant).read.symm⟩

/-- Migrating a cell of an owner whose tokens open to plain texts leaves what it reads. -/
theorem OpensPlain.alike (h : v.Calm (.ok k)) {id : OwnerId} {owner : Owner} {field : FieldName}
    {strict : Bool} {ref : FieldRef} {c' : Cell} (ho : v.store.owner? id = some owner)
    (hplain : v.OpensPlain owner)
    (hm : Cell.MigratesTo k v.tenancy (owner.tenant, owner.serviceAccount) field
      (v.store.cell id field) c') :
    Cell.Alike strict (.ok k) ref (v.store.cell id field) c' := by
  rw [Cell.MigratesTo] at hm
  split at hm
  · refine hm.alike ?_
    intro hscope value text hstored hmarked hreveal
    -- The hypothesis speaks of the cipher of the vault, which answers what `reveal` tells.
    rw [Store.stored_cell ho] at hstored
    rw [← FieldCipher.answer_decrypt h.answers] at hreveal
    exact hplain field value text hscope hstored hmarked hreveal
  · rw [hm]
    exact .refl _

end Vault

namespace Work

/-- **Encrypting cannot be noticed by reading.** From every state of the store and all settings,
with a key at hand: encrypting an owner whose tokens in scope open to texts that are not marked
succeeds, and every read of every owner and field answers afterwards as it did before, be it strict
or lenient. The same holds of a whole tenant if it holds of all its owners. -/
theorem encryption_invisible (h : v.Calm (.ok k)) :
    (∀ id owner, v.store.owner? id = some owner → v.OpensPlain owner →
      (∃ report, answer (encryptOwner id) v = .ok report) ∧
        v.ReadsLike (after (encryptOwner id) v)) ∧
    (∀ tenant, (∀ id owner, v.store.owner? id = some owner → owner.tenant = tenant →
        v.OpensPlain owner) →
      (∃ report, answer (encryptAll tenant) v = .ok report) ∧
        v.ReadsLike (after (encryptAll tenant) v)) := by
  refine ⟨?_, ?_⟩
  · intro id owner ho hplain
    obtain ⟨report, v', hrun, hwrites, hcells⟩ := encryptOwner_run h ho
    rw [after_of_run hrun]
    refine ⟨⟨report, answer_of_run hrun⟩, hwrites.readsLike h ?_⟩
    rintro strict id' field tenant rfl
    exact hplain.alike h ho (hcells field)
  · intro tenant hplain
    obtain ⟨report, v', hrun, hwrites, hcells⟩ := encryptAll_run h tenant
    rw [after_of_run hrun]
    refine ⟨⟨report, answer_of_run hrun⟩, hwrites.readsLike h ?_⟩
    intro strict id field tenant' hid
    obtain ⟨owner, ho, htenant⟩ := Store.mem_ownersIn_iff.1 hid
    exact (hplain id owner ho htenant).alike h ho (hcells id owner ho htenant field)

/-- The same for an owner with one plain field of an enabled tenant. -/
theorem encryption_invisible_alice :
    let k : Key := ⟨List.replicate 16 7, .inl rfl⟩
    let alice : Owner := ⟨"alice", "acme", false, Registry.empty.file ⟨"email", some "a@acme"⟩⟩
    let v := settled k (({} : Store).putOwner alice) (Tenancy.none.setEnabled "acme" true)
    v.ReadsLike (after (encryptOwner "alice") v) ∧ v.ReadsLike (after (encryptAll "acme") v) := by
  intro k alice v
  have ho : v.store.owner? "alice" = some alice := Store.owner?_putOwner_self {} alice
  have hplain : v.OpensPlain alice := by
    intro field value text hscope hvalue hmarked
    by_cases hfield : field = "email"
    · subst hfield
      cases (Owner.value_write_self ⟨"alice", "acme", false, .empty⟩ "email"
        (some "a@acme")).symm.trans hvalue
      exact absurd hmarked (by decide)
    · cases (Owner.value_write_of_ne ⟨"alice", "acme", false, .empty⟩ hfield
        (some "a@acme")).symm.trans hvalue
  obtain ⟨howner, htenant⟩ := encryption_invisible (calm_settled k _ _)
  refine ⟨(howner "alice" alice ho hplain).2, (htenant "acme" ?_).2⟩
  intro id owner ho' _
  by_cases hid : id = "alice"
  · subst hid
    cases ho.symm.trans ho'
    exact hplain
  · cases (Store.owner?_putOwner_of_ne {} (show id ≠ alice.id from hid)).symm.trans ho'

end Work

end FieldVault

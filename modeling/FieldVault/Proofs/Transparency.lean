/-
Readers and writers need not know that fields are encrypted.

Beside the run of a vault, with its migrations and changes of settings in any order, stands the run
of its inserts and writes alone. The two stores are related cell by cell. A cell of the vault either
has the entry of the plain store as it is, and then no value that looks like a hash has a shadow
record beside it; or it holds the lookup hash of the plain value, with a token of that value in its
shadow record. Every request keeps this: a write overwrites the entry and leaves the shadow record,
if any, stale; encrypting turns the first case into the second; decrypting turns the second into
the first. In both cases the cell reads as the plain entry.
-/
import FieldVault.Proofs.Invisibility
import FieldVault.Proofs.Restoration

set_option autoImplicit false

namespace FieldVault

open Vault

variable {k : Key}

/-! ## Requests -/

/-- What clients and administrators ask of a vault. -/
inductive Request where
  | insert (owner : Owner)
  | write (id : OwnerId) (field : FieldName) (value : Option String)
  | setEnabled (tenant : TenantId) (enabled : Bool)
  | setOptIn (tenant : TenantId) (field : FieldName) (chosen : Bool)
  | encrypt (id : OwnerId)
  | decrypt (id : OwnerId)

namespace Request

/-- The work that a request stands for. -/
def run : Request → Work Unit
  | insert owner => Work.insertOwner owner
  | write id field value => Work.transaction (Work.writeField id field value)
  | setEnabled tenant enabled => Work.setEnabled tenant enabled
  | setOptIn tenant field chosen => Work.setOptIn tenant field chosen
  | encrypt id => do let _ ← Work.transaction (Work.encryptOwnerIn id)
  | decrypt id => do let _ ← Work.transaction (Work.decryptOwnerIn id)

/-- The request puts plain values in. -/
def isEdit : Request → Bool
  | insert _ => true
  | write _ _ _ => true
  | _ => false

/-- A value may be put into a field: it is not marked as a token, and if it looks like a lookup hash
there is no shadow record that it could be taken to belong to. -/
def Fits (s : Store) (id : OwnerId) (field : FieldName) (value : Option String) : Prop :=
  ∀ text, value = some text → Token.isMarked text = false ∧
    (LookupHash.isShaped text = true → s.shadow? id field = none)

/-- A request is one that clients are held to: the values it puts in fit, and the owner it names is
there. -/
def Permitted (s : Store) : Request → Prop
  | insert owner => ∀ field, Fits s owner.id field (owner.value field)
  | write id field value => (s.owner? id).isSome = true ∧ Fits s id field value
  | setEnabled _ _ => True
  | setOptIn _ _ _ => True
  | encrypt id => (s.owner? id).isSome = true
  | decrypt id => (s.owner? id).isSome = true

end Request

namespace Vault

/-- The vault that requests leave, one after the other. -/
def serve (v : Vault) (requests : List Request) : Vault :=
  requests.foldl (fun v request => after request.run v) v

/-- The store that the inserts and writes among the requests make by themselves. -/
def edited (v : Vault) (requests : List Request) : Store :=
  (v.serve (requests.filter Request.isEdit)).store

/-- Each request is permitted in the state that it comes to. -/
def Admits (v : Vault) : List Request → Prop
  | [] => True
  | request :: requests =>
    request.Permitted v.store ∧ (after request.run v).Admits requests

end Vault

/-! ## One cell -/

/-- A cell stands for an entry of the plain store: it has that entry, or hides it behind the lookup
hash and the token of its value. -/
inductive Cell.Holds (k : Key) : Cell → Option (Option String) → Prop where
  | plain {c : Cell} (h : ∀ text, c.stored = some text → Token.isMarked text = false ∧
      (LookupHash.isShaped text = true → c.shadow = none)) : Holds k c c.entry
  | hidden {c : Cell} {shadow : Shadow} {text : String} (hm : Token.isMarked text = false)
      (hentry : c.entry = some (some (LookupHash.of text))) (hshadow : c.shadow = some shadow)
      (hreveal : reveal (.ok k) shadow.ciphertext = .ok text) : Holds k c (some (some text))

namespace Cell.Holds

variable {c c' : Cell} {entry : Option (Option String)} {strict : Bool} {ref : FieldRef}

theorem live?_of_hidden {shadow : Shadow} {text : String}
    (hentry : c.entry = some (some (LookupHash.of text))) (hshadow : c.shadow = some shadow) :
    c.live? = some shadow := by
  refine live?_eq_some_iff.2 ⟨hshadow, ?_⟩
  rw [Cell.stored, hentry]
  exact isStale_of text

/-- A cell reads as the entry that it stands for. -/
theorem read (h : Holds k c entry) (strict : Bool) (ref : FieldRef) :
    c.read strict (.ok k) ref = .ok entry.join := by
  cases h with
  | plain h =>
    -- A live shadow record would stand beside a value that looks like a hash.
    have hlive : c.live? = none := by
      cases hl : c.live? with
      | none => rfl
      | some shadow =>
        obtain ⟨hshadow, hstale⟩ := live?_eq_some_iff.1 hl
        cases hs : c.stored with
        | none =>
          rw [hs] at hstale
          cases hstale
        | some text =>
          rw [hs, isStale, Bool.not_eq_false'] at hstale
          rw [(h text hs).2 hstale] at hshadow
          cases hshadow
    rw [read_of_not_live hlive]
    change storedText strict (.ok k) c.stored = .ok c.stored
    cases hs : c.stored with
    | none => rfl
    | some text => exact storedText_of_not_marked (h text hs).1
  | @hidden shadow text hm hentry hshadow hreveal =>
    exact read_of_hash hshadow (by rw [Cell.stored, hentry]; rfl) hreveal

/-- The entry with what the cell reads put in is the entry that it stands for. -/
theorem entry_read (h : Holds k c entry) :
    (c.entry.map fun _ => (c.read strict (.ok k) ref).toOption.getD none) = entry := by
  rw [h.read]
  cases h with
  | plain h => cases c.entry <;> rfl
  | hidden hm hentry hshadow hreveal =>
    rw [hentry]
    rfl

/-- Decrypting brings the entry back. -/
theorem decrypted (h : Holds k c entry) : c.decrypted k ref = ⟨entry, none⟩ := by
  rw [Cell.decrypted, h.entry_read]

/-- The value that a cell stands for is not marked. -/
theorem not_marked (h : Holds k c entry) {text : String} (htext : entry.join = some text) :
    Token.isMarked text = false := by
  cases h with
  | plain h => exact (h text htext).1
  | hidden hm hentry hshadow hreveal =>
    cases htext
    exact hm

/-- A cell without a shadow record stands for its entry, if that is not marked. -/
theorem of_shadow_none {entry : Option (Option String)}
    (h : ∀ text, entry.join = some text → Token.isMarked text = false) :
    Holds k ⟨entry, none⟩ entry :=
  .plain fun text htext => ⟨h text htext, fun _ => rfl⟩

/-- Decrypting keeps what a cell stands for. -/
theorem of_decrypted (h : Holds k c entry) : Holds k (c.decrypted k ref) entry := by
  rw [h.decrypted]
  exact of_shadow_none fun text htext => h.not_marked htext

/-- Encrypting keeps what a cell stands for. -/
theorem of_encrypted {inScope : Bool} (h : Holds k c entry) (he : EncryptsTo k inScope c c') :
    Holds k c' entry := by
  rcases he.cases with ⟨text, hs, hsealed⟩ | ⟨-, rfl⟩
  -- What is sealed is what the cell reads, so it is the value that the cell stands for.
  · obtain ⟨value, -, -, -, hread⟩ := read_of_sealable true ⟨"", "", ""⟩ hs
    rw [h.read, Except.ok.injEq] at hread
    have hm := h.not_marked hread
    obtain ⟨shadow, hshadow, hreveal⟩ := hsealed.reveal hm
    rw [Option.join_eq_some_iff.1 hread]
    exact .hidden hm hsealed.entry hshadow hreveal
  -- Nothing is sealed: a stale record is swept from a plain cell, a hidden cell stays.
  · cases h with
    | plain h =>
      have hentry := entry_swept c
      have hplain : Holds k c.swept c.swept.entry := by
        refine .plain ?_
        intro text htext
        rw [Cell.stored, hentry] at htext
        refine ⟨(h text htext).1, ?_⟩
        intro hshaped
        have hnone := (h text htext).2 hshaped
        rw [swept_of_shadow_none hnone, hnone]
      rwa [hentry] at hplain
    | hidden hm hentry hshadow hreveal =>
      rw [swept_of_live (live?_of_hidden hentry hshadow)]
      exact .hidden hm hentry hshadow hreveal

theorem of_migrated {tenancy : Tenancy} {head : TenantId × Bool} {field : FieldName}
    (h : Holds k c entry) (hm : MigratesTo k tenancy head field c c') : Holds k c' entry := by
  rw [MigratesTo] at hm
  split at hm
  · exact h.of_encrypted hm
  · rwa [hm]

end Cell.Holds

/-! ## Vaults -/

namespace Vault

variable {v a : Vault} {id : OwnerId} {owner : Owner}

/-- A vault stands for another one, which has only seen the inserts and writes: the owners have the
same heads, and each cell stands for the entry of the other vault. -/
structure StandsFor (k : Key) (v a : Vault) : Prop where
  calm : v.Calm (.ok k)
  plain : a.Calm (.ok k)
  heads : ∀ id, v.store.head? id = a.store.head? id
  cells : ∀ id field, Cell.Holds k (v.store.cell id field) (a.store.cell id field).entry

namespace StandsFor

theorem exists_owner (h : StandsFor k v a) (ho : a.store.owner? id = some owner) :
    ∃ owner', v.store.owner? id = some owner' ∧ owner'.tenant = owner.tenant ∧
      owner'.serviceAccount = owner.serviceAccount := by
  exact Store.exists_owner_of_head?_eq ho (h.heads id)

/-- Work that changes cells of the vault only, each to one that stands for the same entry, keeps the
vault standing for the other one. -/
theorem of_writes {w : Vault} {touched : OwnerId → FieldName → Prop} (h : StandsFor k v a)
    (hw : Writes (.ok k) touched v w)
    (hcells : ∀ id field, touched id field →
      Cell.Holds k (w.store.cell id field) (a.store.cell id field).entry) :
    StandsFor k w a := by
  refine ⟨hw.calm, h.plain, fun id => (hw.off.heads id).trans (h.heads id), ?_⟩
  intro id field
  by_cases ht : touched id field
  · exact hcells id field ht
  · rw [hw.off.cells id field ht]
    exact h.cells id field

/-- No field is withheld. -/
theorem unreadable (h : StandsFor k v a) (ho : v.store.owner? owner.id = some owner)
    (strict : Bool) : (v.store.reading strict (.ok k) owner).unreadable = [] := by
  rw [List.eq_nil_iff_forall_not_mem]
  intro field hfield
  obtain ⟨e, he⟩ := Store.isWithheld_iff.1 ((Store.mem_unreadable_iff ho).1 hfield)
  rw [(h.cells owner.id field).read] at he
  cases he

/-- What is read is the owner of the other vault. -/
theorem reading (h : StandsFor k v a) {owner' : Owner} (ha : a.store.owner? id = some owner)
    (ho : v.store.owner? id = some owner') (strict : Bool) :
    v.store.reading strict (.ok k) owner' = ⟨owner, []⟩ := by
  obtain ⟨owner'', ho'', htenant, hservice⟩ := h.exists_owner ha
  rw [ho] at ho''
  cases ho''
  have hid := Store.id_of_owner? ho
  subst hid
  obtain ⟨hid₁, htenant₁, hservice₁⟩ := Store.head_reading v.store strict (.ok k) owner'
  refine Reading.eq_of_parts ?_ (h.unreadable ho strict)
  refine Owner.ext_entry (hid₁.trans (Store.id_of_owner? ha).symm) (htenant₁.trans htenant)
    (hservice₁.trans hservice) ?_
  intro field
  rw [Store.entry_reading ho, ← Store.entry_cell ho, ← Store.entry_cell ha]
  exact (h.cells owner'.id field).entry_read

/-- What is read of a field is its value in the other vault. -/
theorem read (h : StandsFor k v a) (ha : a.store.owner? id = some owner) (field : FieldName)
    (strict : Bool) (ref : FieldRef) :
    (v.store.cell id field).read strict (.ok k) ref = .ok (owner.value field) := by
  rw [(h.cells id field).read, Store.entry_cell ha, Owner.value_eq_join]

/-! ## Requests -/

/-- Inserting an owner whose values fit. -/
theorem insert (h : StandsFor k v a)
    (hfits : ∀ field, Request.Fits v.store owner.id field (owner.value field)) :
    StandsFor k (after (Work.insertOwner owner) v) (after (Work.insertOwner owner) a) := by
  rw [after_of_run (Work.insertOwner_run h.calm owner),
    after_of_run (Work.insertOwner_run h.plain owner)]
  refine ⟨(h.calm.follows_store _).calm, (h.plain.follows_store _).calm, ?_, ?_⟩
  · intro id
    change (v.store.putOwner owner).head? id = (a.store.putOwner owner).head? id
    by_cases hid : id = owner.id
    · subst hid
      rw [Store.head?_putOwner_self, Store.head?_putOwner_self]
    · rw [Store.head?_putOwner_of_ne hid, Store.head?_putOwner_of_ne hid, h.heads]
  · intro id field
    change Cell.Holds k ((v.store.putOwner owner).cell id field)
      ((a.store.putOwner owner).cell id field).entry
    -- The cells of the owner are new on both sides; a shadow record may be left over.
    by_cases hid : id = owner.id
    · subst hid
      rw [Store.cell_putOwner_self, Store.cell_putOwner_self]
      refine Cell.Holds.plain (c := ⟨owner.entry field, v.store.shadow? owner.id field⟩) ?_
      intro text htext
      exact hfits field text ((Owner.value_eq_join owner field).trans htext)
    · rw [Store.cell_putOwner_of_ne hid, Store.cell_putOwner_of_ne hid]
      exact h.cells id field

/-- Writing a value that fits. -/
theorem write (h : StandsFor k v a) (ho : (v.store.owner? id).isSome = true) {field : FieldName}
    {value : Option String} (hfits : Request.Fits v.store id field value) :
    StandsFor k (after (Work.transaction (Work.writeField id field value)) v)
      (after (Work.transaction (Work.writeField id field value)) a) := by
  obtain ⟨owner, ho⟩ := Option.isSome_iff_exists.1 ho
  obtain ⟨owner', ha, -⟩ := Store.exists_owner_of_head?_eq ho (h.heads id).symm
  obtain ⟨s, hs, hsets⟩ := Store.sets_writeField ho field value
  obtain ⟨t, ht, htsets⟩ := Store.sets_writeField ha field value
  rw [after_of_run (Work.transaction_run_of_ok h.calm (Work.writeField_run h.calm hs)),
    after_of_run (Work.transaction_run_of_ok h.plain (Work.writeField_run h.plain ht))]
  refine ⟨(h.calm.follows_store s).calm, (h.plain.follows_store t).calm, ?_, ?_⟩
  · intro id'
    change s.head? id' = t.head? id'
    rw [hsets.off.heads, htsets.off.heads, h.heads]
  · intro id' field'
    change Cell.Holds k (s.cell id' field') (t.cell id' field').entry
    by_cases hcell : id' = id ∧ field' = field
    · obtain ⟨rfl, rfl⟩ := hcell
      rw [hsets.cell, htsets.cell]
      exact Cell.Holds.plain (c := ⟨some value, v.store.shadow? id' field'⟩) hfits
    · rw [hsets.off.cells id' field' hcell, htsets.off.cells id' field' hcell]
      exact h.cells id' field'

/-- Encrypting an owner succeeds and cannot be told from doing nothing. -/
theorem encrypt (h : StandsFor k v a) (ho : v.store.owner? id = some owner) :
    ∃ report w, Work.transaction (Work.encryptOwnerIn id) v = .ok report w ∧ StandsFor k w a := by
  obtain ⟨report, w, hrun, hwrites, hcells⟩ := Work.encryptOwner_run h.calm ho
  refine ⟨report, w, hrun, h.of_writes hwrites ?_⟩
  rintro id' field rfl
  exact (h.cells id' field).of_migrated (hcells field)

/-- Decrypting an owner succeeds and leaves the owner of the other vault, without shadow records. -/
theorem decrypt (h : StandsFor k v a) (ho : v.store.owner? id = some owner) :
    ∃ report w, Work.transaction (Work.decryptOwnerIn id) v = .ok report w ∧
      StandsFor k w a ∧ w.store.owner? id = a.store.owner? id ∧ w.store.shadowsOf id = [] := by
  have hid := Store.id_of_owner? ho
  subst hid
  obtain ⟨report, w, hrun, hwrites, hcells⟩ :=
    Work.decryptOwnerIn_run h.calm ho (h.unreadable ho false)
  have hplain : ∀ field, w.store.cell owner.id field =
      ⟨(a.store.cell owner.id field).entry, none⟩ := by
    intro field
    rw [hcells, (h.cells owner.id field).decrypted]
  refine ⟨report, w, Work.transaction_run_of_ok h.calm hrun, h.of_writes hwrites ?_, ?_, ?_⟩
  · rintro id' field rfl
    rw [hcells]
    exact (h.cells owner.id field).of_decrypted
  · refine Store.owner?_congr ((hwrites.off.heads owner.id).trans (h.heads owner.id)) ?_
    intro field
    rw [hplain]
  · exact Store.shadowsOf_eq_nil fun field => congrArg Cell.shadow (hplain field)

/-- Every request that is permitted keeps the vault standing for the one that sees edits only. -/
theorem request (h : StandsFor k v a) {request : Request} (hp : request.Permitted v.store) :
    StandsFor k (after request.run v) (if request.isEdit then after request.run a else a) := by
  cases request with
  | insert owner => exact h.insert hp
  | write id field value => exact h.write hp.1 hp.2
  | setEnabled tenant enabled =>
    have hrun := Work.setEnabled_run h.calm tenant enabled
    rw [Request.run, after_of_run hrun]
    exact ⟨⟨h.calm.answers, h.calm.serving, h.calm.outages⟩, h.plain, h.heads, h.cells⟩
  | setOptIn tenant field chosen =>
    exact ⟨⟨h.calm.answers, h.calm.serving, h.calm.outages⟩, h.plain, h.heads, h.cells⟩
  | encrypt id =>
    obtain ⟨owner, ho⟩ := Option.isSome_iff_exists.1 hp
    obtain ⟨report, w, hrun, hw⟩ := h.encrypt ho
    have hrun' : (Request.encrypt id).run v = .ok () w := (run_bind_of_ok hrun _).trans rfl
    rw [after_of_run hrun']
    exact hw
  | decrypt id =>
    obtain ⟨owner, ho⟩ := Option.isSome_iff_exists.1 hp
    obtain ⟨report, w, hrun, hw, -⟩ := h.decrypt ho
    have hrun' : (Request.decrypt id).run v = .ok () w := (run_bind_of_ok hrun _).trans rfl
    rw [after_of_run hrun']
    exact hw

/-- The same for a whole run. The induction is on the requests, from the first one on. -/
theorem serve (h : StandsFor k v a) {requests : List Request} (hp : v.Admits requests) :
    StandsFor k (v.serve requests) (a.serve (requests.filter Request.isEdit)) := by
  induction requests generalizing v a with
  | nil => exact h
  | cons request requests ih =>
    have hstep := ih (h.request hp.1) hp.2
    rw [List.filter_cons]
    by_cases hedit : request.isEdit = true
    · rw [if_pos hedit] at hstep
      rw [if_pos hedit]
      exact hstep
    · rw [if_neg hedit] at hstep
      rw [if_neg hedit]
      exact hstep

end StandsFor

/-- An empty vault stands for itself. -/
theorem standsFor_of_empty (h : v.Calm (.ok k)) (hempty : v.store = {}) : StandsFor k v v := by
  refine ⟨h, h, fun _ => rfl, ?_⟩
  intro id field
  rw [hempty]
  exact .of_shadow_none fun text htext => by cases htext

end Vault

/-! ## Runs -/

namespace Work

variable {v : Vault}

/-- **Encryption is transparent.** A vault with a key at hand starts out empty and serves any
requests that clients are held to: inserts, writes, changes of settings, encryptions and decryptions
of single owners, in any order. Take the store that the inserts and writes among them make by
themselves. Whatever owner it has, the vault serves that owner as it is there and withholds nothing,
strict or not, and serves each of its fields; encrypting or decrypting the owner succeeds; and
decrypting leaves the very record, with no shadow records beside it. Owners that it does not have
are not in the vault. -/
theorem encryption_transparent (h : v.Calm (.ok k)) (hempty : v.store = {})
    (requests : List Request) (hp : v.Admits requests) :
    ∀ id,
      ((v.edited requests).owner? id = none → (v.serve requests).store.owner? id = none) ∧
      ∀ owner, (v.edited requests).owner? id = some owner →
        (∀ strict,
          answer (loadOwnerPlain id) { v.serve requests with strict } = .ok ⟨owner, []⟩ ∧
          ∀ field, answer (loadField id field) { v.serve requests with strict } =
            .ok (owner.value field)) ∧
        (∃ report, answer (transaction (encryptOwnerIn id)) (v.serve requests) = .ok report) ∧
        (∃ report, answer (transaction (decryptOwnerIn id)) (v.serve requests) = .ok report) ∧
        (after (transaction (decryptOwnerIn id)) (v.serve requests)).store.owner? id =
          some owner ∧
        (after (transaction (decryptOwnerIn id)) (v.serve requests)).store.shadowsOf id = [] := by
  have hstands := (standsFor_of_empty h hempty).serve hp
  intro id
  refine ⟨?_, ?_⟩
  · intro hnone
    exact Store.owner?_eq_none_of_head?_eq hnone (hstands.heads id)
  · intro owner hplain
    obtain ⟨owner', ho, htenant, -⟩ := hstands.exists_owner hplain
    obtain ⟨encrypted, w, hencrypt, -⟩ := hstands.encrypt ho
    obtain ⟨decrypted, w', hdecrypt, -, howner, hshadows⟩ := hstands.decrypt ho
    refine ⟨?_, ⟨encrypted, answer_of_run hencrypt⟩, ⟨decrypted, answer_of_run hdecrypt⟩, ?_, ?_⟩
    · intro strict
      have hcalm := hstands.calm.with_strict strict
      refine ⟨?_, ?_⟩
      · rw [(loadOwnerPlain_reads_key hcalm ho).answer]
        exact congrArg _ (hstands.reading hplain ho strict)
      · intro field
        rw [(loadField_reads hcalm ho field).answer]
        exact hstands.read hplain field strict _
    · rw [after_of_run hdecrypt, howner]
      exact hplain
    · rw [after_of_run hdecrypt, hshadows]

/-- An owner is inserted, its tenant enabled and the owner encrypted; it is still served as it was
inserted. -/
theorem encryption_transparent_alice :
    let k : Key := ⟨List.replicate 16 7, .inl rfl⟩
    let alice : Owner := ⟨"alice", "acme", false, Registry.empty.file ⟨"email", some "a@acme"⟩⟩
    let v := settled k {} .none
    let requests := [.insert alice, .setEnabled "acme" true, .encrypt "alice"]
    v.Admits requests ∧ ∀ strict,
      answer (loadOwnerPlain "alice") { v.serve requests with strict } = .ok ⟨alice, []⟩ := by
  intro k alice v requests
  have hstored : ∀ store : Store, (store.putOwner alice).owner? "alice" = some alice :=
    fun store => Store.owner?_putOwner_self store alice
  have hfits : ∀ field, Request.Fits v.store "alice" field (alice.value field) := by
    intro field text htext
    by_cases hfield : field = "email"
    · subst hfield
      cases (Owner.value_write_self ⟨"alice", "acme", false, .empty⟩ "email"
        (some "a@acme")).symm.trans htext
      exact ⟨by decide, fun _ => rfl⟩
    · cases (Owner.value_write_of_ne ⟨"alice", "acme", false, .empty⟩ hfield
        (some "a@acme")).symm.trans htext
  have hadmits : v.Admits requests :=
    ⟨hfits, trivial, Option.isSome_iff_exists.2 ⟨alice, hstored v.store⟩, trivial⟩
  have hserved := encryption_transparent (calm_settled k {} .none) rfl requests hadmits "alice"
  exact ⟨hadmits, fun strict => ((hserved.2 alice (hstored v.store)).1 strict).1⟩

end Work

end FieldVault

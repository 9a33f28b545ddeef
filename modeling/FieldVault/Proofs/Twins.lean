/-
Cells that differ in the ciphertext only.

Two cells are twins if they have the same entry and their shadow records, if any, reveal the same.
The ids of the records and the vectors in the ciphertexts are left open: these are the things that
are drawn at random. Nothing that reads, encrypts or decrypts can tell twins apart. What there is
to seal, what is stale and what a read answers depends on the entry and on what the record reveals,
and whatever is sealed anew reveals the text that was sealed. So twins are read alike, become twins
when they are encrypted, and become equal when they are decrypted.
-/
import FieldVault.Proofs.Decryption

set_option autoImplicit false

namespace FieldVault

variable {k : Key}

/-! ## Cells -/

namespace Cell

/-- What the shadow record of a cell reveals. -/
def revealed (k : Key) (c : Cell) : Option (Except Error String) :=
  c.shadow.map fun shadow => reveal (.ok k) shadow.ciphertext

/-- The same entry, and shadow records that reveal the same. -/
structure Twin (k : Key) (c d : Cell) : Prop where
  entry : d.entry = c.entry
  revealed : d.revealed k = c.revealed k

namespace Twin

variable {c c' d d' : Cell}

theorem refl (c : Cell) : Twin k c c := ⟨rfl, rfl⟩

theorem of_eq (h : d = c) : Twin k c d := by
  rw [h]
  exact .refl c

theorem stored (h : Twin k c d) : d.stored = c.stored := by
  unfold Cell.stored
  rw [h.entry]

theorem sealable (h : Twin k c d) (inScope : Bool) :
    d.sealable k inScope = c.sealable k inScope := by
  unfold Cell.sealable
  rw [h.stored]

theorem sealReport (h : Twin k c d) (inScope : Bool) :
    d.sealReport k inScope = c.sealReport k inScope := by
  unfold Cell.sealReport
  rw [h.stored]

theorem isLeftover (h : Twin k c d) (inScope : Bool) :
    d.isLeftover k inScope = c.isLeftover k inScope := by
  unfold Cell.isLeftover
  rw [h.sealable, h.stored]

theorem isSome_shadow (h : Twin k c d) : d.shadow.isSome = c.shadow.isSome := by
  have hr := congrArg Option.isSome h.revealed
  unfold Cell.revealed at hr
  rwa [Option.isSome_map, Option.isSome_map] at hr

theorem reveal_eq (h : Twin k c d) {a b : Shadow} (ha : c.shadow = some a)
    (hb : d.shadow = some b) : reveal (.ok k) b.ciphertext = reveal (.ok k) a.ciphertext := by
  have hr := h.revealed
  unfold Cell.revealed at hr
  rw [ha, hb] at hr
  exact Option.some.inj hr

theorem swept (h : Twin k c d) : Twin k c.swept d.swept := by
  unfold Cell.swept
  rw [h.stored]
  split
  · exact ⟨h.entry, rfl⟩
  · exact h

/-- Live shadow records stand beside the same value, so both cells have one or neither has. -/
theorem isSome_live? (h : Twin k c d) : d.live?.isSome = c.live?.isSome := by
  unfold Cell.live?
  rw [h.stored]
  by_cases hstale : isStale c.stored = true
  · simp [hstale]
  · simpa [hstale] using h.isSome_shadow

theorem read (h : Twin k c d) (strict : Bool) (ref : FieldRef) :
    d.read strict (.ok k) ref = c.read strict (.ok k) ref := by
  have hlive := h.isSome_live?
  cases hc : c.live? with
  | none =>
    rw [hc, Option.isSome_none, Option.isSome_eq_false_iff, Option.isNone_iff_eq_none] at hlive
    rw [read_of_not_live hc, read_of_not_live hlive, h.stored]
  | some a =>
    rw [hc, Option.isSome_some, Option.isSome_iff_exists] at hlive
    obtain ⟨b, hb⟩ := hlive
    -- Verifying looks at the value in the record and at what the ciphertext reveals.
    rw [read_of_live hc, read_of_live hb, verified, verified, h.stored,
      h.reveal_eq (live?_eq_some_iff.1 hc).1 (live?_eq_some_iff.1 hb).1]

theorem alike (h : Twin k c d) (strict : Bool) (ref : FieldRef) :
    Alike strict (.ok k) ref c d :=
  ⟨by rw [h.entry], (h.read strict ref).symm, fun _ _ => h.isSome_live?.symm⟩

theorem decrypted (h : Twin k c d) (ref : FieldRef) : d.decrypted k ref = c.decrypted k ref := by
  unfold Cell.decrypted
  rw [h.entry, h.read]

/-- Whatever vectors are drawn, sealed texts are revealed. -/
theorem of_sealed {text : String} (hc : Sealed k text c c') (hd : Sealed k text d d') :
    Twin k c' d' := by
  obtain ⟨a, iv, ha, hca, -⟩ := hc.shadow
  obtain ⟨b, iv', hb, hcb, -⟩ := hd.shadow
  refine ⟨hd.entry.trans hc.entry.symm, ?_⟩
  unfold Cell.revealed
  rw [ha, hb, Option.map_some, Option.map_some, hca, hcb]
  by_cases hm : Token.isMarked text = true
  · rw [if_pos hm, if_pos hm]
  · rw [if_neg hm, if_neg hm, reveal_tokenText, reveal_tokenText]

/-- Twins that are encrypted are twins again. -/
theorem encrypted (h : Twin k c d) {inScope : Bool} (hc : EncryptsTo k inScope c c')
    (hd : EncryptsTo k inScope d d') : Twin k c' d' := by
  unfold EncryptsTo at hc hd
  rw [h.sealable] at hd
  cases hs : c.sealable k inScope with
  | some text =>
    rw [hs] at hc hd
    exact of_sealed hc hd
  | none =>
    rw [hs] at hc hd
    subst hc hd
    exact h.swept

theorem migrated (h : Twin k c d) {tenancy : Tenancy} {head : TenantId × Bool}
    {field : FieldName} (hc : MigratesTo k tenancy head field c c')
    (hd : MigratesTo k tenancy head field d d') : Twin k c' d' := by
  unfold MigratesTo at hc hd
  split at hc
  · rename_i henabled
    rw [if_pos henabled] at hd
    exact h.encrypted hc hd
  · rename_i henabled
    rw [if_neg henabled] at hd
    subst hc hd
    exact h

end Twin

end Cell

/-! ## Owners -/

namespace Store

variable {s t : Store} {owner : Owner}

section Owners

variable (hcells : ∀ field, Cell.Twin k (s.cell owner.id field) (t.cell owner.id field))
include hcells

/-- Twins have their shadow records in the same fields. -/
theorem fields_shadowsOf_of_twins :
    (t.shadowsOf owner.id).map Shadow.field = (s.shadowsOf owner.id).map Shadow.field := by
  refine (ascending_fields_shadowsOf t owner.id).eq_of_mem_iff
    (ascending_fields_shadowsOf s owner.id) ?_
  intro field
  have hsome : (t.shadow? owner.id field).isSome = (s.shadow? owner.id field).isSome :=
    (hcells field).isSome_shadow
  rw [mem_fields_shadowsOf_iff, mem_fields_shadowsOf_iff, hsome]

theorem encryptReport_of_twins (tenancy : Tenancy) :
    t.encryptReport k tenancy owner = s.encryptReport k tenancy owner := by
  have hseals : ∀ inScope : FieldName → Bool,
      (owner.fields.toList.map fun f => (t.cell owner.id f.name).sealReport k (inScope f.name)) =
        owner.fields.toList.map fun f =>
          (s.cell owner.id f.name).sealReport k (inScope f.name) :=
    fun inScope => List.map_congr_left fun f _ => (hcells f.name).sealReport _
  have hleft : ∀ inScope : FieldName → Bool,
      (t.shadowsOf owner.id).countP (fun shadow =>
          (t.cell owner.id shadow.field).isLeftover k (inScope shadow.field)) =
        (s.shadowsOf owner.id).countP fun shadow =>
          (s.cell owner.id shadow.field).isLeftover k (inScope shadow.field) := by
    intro inScope
    -- The count is over the names of the fields, and these are the same.
    have hcount : ∀ u : Store, (u.shadowsOf owner.id).countP (fun shadow =>
        (u.cell owner.id shadow.field).isLeftover k (inScope shadow.field)) =
          ((u.shadowsOf owner.id).map Shadow.field).countP fun field =>
            (u.cell owner.id field).isLeftover k (inScope field) := by
      intro u
      rw [List.countP_map]
      rfl
    rw [hcount t, hcount s, fields_shadowsOf_of_twins hcells]
    refine List.countP_congr fun field _ => ?_
    rw [(hcells field).isLeftover]
  unfold encryptReport
  rw [hseals fun field => tenancy.inScope owner.tenant field,
    hleft fun field => tenancy.inScope owner.tenant field]

variable (hs : s.owner? owner.id = some owner) (ht : t.owner? owner.id = some owner)
include hs ht

theorem reading_of_twins (strict : Bool) :
    t.reading strict (.ok k) owner = s.reading strict (.ok k) owner :=
  (reading_congr hs ht rfl rfl fun field => (hcells field).alike strict _).symm

theorem decryptChanges_of_twins : t.decryptChanges k owner = s.decryptChanges k owner := by
  have hlength : (t.shadowsOf owner.id).length = (s.shadowsOf owner.id).length := by
    have hnames := congrArg List.length (fields_shadowsOf_of_twins hcells)
    rwa [List.length_map, List.length_map] at hnames
  have htokens : t.tokenFields owner = s.tokenFields owner := by
    refine List.filter_congr fun f _ => ?_
    -- The live shadow records are of the same fields.
    have hlive : (t.liveShadows owner).all (·.field ≠ f.name) =
        (s.liveShadows owner).all (·.field ≠ f.name) := by
      rw [Bool.eq_iff_iff, all_ne_liveShadows_iff ht, all_ne_liveShadows_iff hs,
        ← Option.not_isSome_iff_eq_none, ← Option.not_isSome_iff_eq_none,
        (hcells f.name).isSome_live?]
    rw [hlive]
  unfold decryptChanges
  rw [hlength, htokens]

end Owners

end Store

/-! ## Vaults -/

namespace Vault

/-- The vaults hold the same records and have shadow records for the same fields, and the
ciphertexts of these decrypt to the same. -/
structure SameContents (v w : Vault) : Prop where
  owners : w.store.owners = v.store.owners
  slots : ∀ id field, (w.store.shadow? id field).isSome = (v.store.shadow? id field).isSome
  texts : ∀ id field a b, v.store.shadow? id field = some a → w.store.shadow? id field = some b →
    answer (FieldCipher.decrypt b.ciphertext) w.cipher =
      answer (FieldCipher.decrypt a.ciphertext) v.cipher

theorem SameContents.of_twins {v w : Vault} (hv : v.Calm (.ok k)) (hw : w.Calm (.ok k))
    (hheads : ∀ id, w.store.head? id = v.store.head? id)
    (hcells : ∀ id field, Cell.Twin k (v.store.cell id field) (w.store.cell id field)) :
    v.SameContents w := by
  refine ⟨Store.owners_congr hheads fun id field => (hcells id field).entry,
    fun id field => (hcells id field).isSome_shadow, ?_⟩
  intro id field a b ha hb
  rw [FieldCipher.answer_decrypt hv.answers, FieldCipher.answer_decrypt hw.answers]
  exact (hcells id field).reveal_eq ha hb

end Vault

end FieldVault

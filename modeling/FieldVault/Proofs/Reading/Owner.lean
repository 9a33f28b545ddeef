/-
What reading a whole owner answers, field by field.

The work goes through the live shadow records and then through the tokens that stand in fields
themselves. What it serves for each of them is what the read of that field alone answers, and a
field that comes up in neither pass already stands in the record as it reads. Both passes go in the
order of the names. So two stores whose cells read alike serve the same record, and withhold the
same fields in the same order.
-/
import FieldVault.Proofs.Reading
import FieldVault.Proofs.Reading.Passes

set_option autoImplicit false

namespace FieldVault

variable {r : Except KeyError Key} {strict : Bool} {ref : FieldRef} {v : Vault}

/-! ## The two passes -/

namespace Store

variable {s : Store} {owner : Owner} {field : FieldName}

/-- What a field is read for, as part of its owner: a value to serve, or a gap. -/
def serve (s : Store) (strict : Bool) (r : Except KeyError Key) (owner : Owner)
    (field : FieldName) : Except Error ServedField :=
  (withhold ((s.cell owner.id field).read strict r ⟨owner.tenant, owner.id, field⟩)).map
    fun value => (field, value)

/-- The live shadow records of an owner. -/
def liveShadows (s : Store) (owner : Owner) : List Shadow :=
  (s.shadowsOf owner.id).filter fun sh => !isStale (owner.value sh.field)

/-- The fields of an owner that hold tokens themselves. -/
def tokenFields (s : Store) (owner : Owner) : List Field :=
  owner.fields.toList.filter fun f =>
    (s.liveShadows owner).all (·.field ≠ f.name) && Work.holdsToken f

/-- The names of the fields that are served from shadow records. -/
def liveNames (s : Store) (owner : Owner) : List FieldName := (s.liveShadows owner).map (·.field)

/-- The names of the fields that hold tokens themselves. -/
def tokenNames (s : Store) (owner : Owner) : List FieldName := (s.tokenFields owner).map (·.name)

theorem mem_liveShadows_iff (ho : s.owner? owner.id = some owner) {sh : Shadow} :
    sh ∈ s.liveShadows owner ↔ (s.cell owner.id sh.field).live? = some sh := by
  rw [liveShadows, List.mem_filter, mem_shadowsOf_iff, Bool.not_eq_true', Cell.live?_eq_some_iff,
    stored_cell ho]
  rfl

theorem mem_liveNames_iff (ho : s.owner? owner.id = some owner) :
    field ∈ s.liveNames owner ↔ (s.cell owner.id field).live?.isSome = true := by
  rw [liveNames, List.mem_map, Option.isSome_iff_exists]
  constructor
  · rintro ⟨sh, hsh, rfl⟩
    exact ⟨sh, (mem_liveShadows_iff ho).1 hsh⟩
  · rintro ⟨sh, hsh⟩
    have hfield := field_of_shadow? (Cell.live?_eq_some_iff.1 hsh).1
    subst hfield
    exact ⟨sh, (mem_liveShadows_iff ho).2 hsh, rfl⟩

theorem all_ne_liveShadows_iff (ho : s.owner? owner.id = some owner) :
    (s.liveShadows owner).all (·.field ≠ field) = true ↔
      (s.cell owner.id field).live? = none := by
  rw [List.all_eq_true, ← Option.not_isSome_iff_eq_none, ← mem_liveNames_iff ho, liveNames,
    List.mem_map]
  constructor
  · rintro hall ⟨sh, hsh, hname⟩
    exact of_decide_eq_true (hall sh hsh) hname
  · intro hn sh hsh
    exact decide_eq_true fun hname => hn ⟨sh, hsh, hname⟩

theorem mem_tokenFields_iff (ho : s.owner? owner.id = some owner) {f : Field} :
    f ∈ s.tokenFields owner ↔ owner.entry f.name = some f.value ∧
      (s.cell owner.id f.name).live? = none ∧ Work.holdsToken f = true := by
  rw [tokenFields, List.mem_filter, Owner.mem_fields_iff, Bool.and_eq_true,
    all_ne_liveShadows_iff ho]

theorem mem_tokenNames_iff (ho : s.owner? owner.id = some owner) :
    field ∈ s.tokenNames owner ↔ (s.cell owner.id field).live? = none ∧
      ∃ value, (s.cell owner.id field).stored = some value ∧ Token.isMarked value = true := by
  rw [tokenNames, List.mem_map, Cell.stored, entry_cell ho]
  constructor
  · rintro ⟨⟨name, value⟩, hf, rfl⟩
    obtain ⟨hentry, hlive, htoken⟩ := (mem_tokenFields_iff ho).1 hf
    cases value with
    | none => cases htoken
    | some value => exact ⟨hlive, value, by rw [hentry]; rfl, htoken⟩
  · rintro ⟨hlive, value, hstored, hmarked⟩
    have hentry : owner.entry field = some (some value) := Option.join_eq_some_iff.1 hstored
    exact ⟨⟨field, some value⟩, (mem_tokenFields_iff ho).2 ⟨hentry, hlive, hmarked⟩, rfl⟩

theorem ascending_liveNames (s : Store) (owner : Owner) : Ascending (s.liveNames owner) :=
  List.Pairwise.sublist (List.filter_sublist.map _) (ascending_fields_shadowsOf s owner.id)

theorem ascending_tokenNames (s : Store) (owner : Owner) : Ascending (s.tokenNames owner) :=
  List.Pairwise.sublist (List.filter_sublist.map _) owner.fields.ascending_keys

end Store

namespace Work

open Vault

section Owner

variable (h : v.Calm r)
include h

theorem serveShadow_reads (owner : Owner) (shadow : Shadow) :
    ReadsAs r (serveShadow owner shadow) v
      (withhold ((verified r ⟨owner.tenant, owner.id, shadow.field⟩ (owner.value shadow.field)
        shadow.ciphertext).map some)) := by
  have hverify := (verifyShadow_reads h owner shadow).outcome
  have hcalm := hverify.reads.calm
  refine hverify.bind ?_
  cases hv : verified r ⟨owner.tenant, owner.id, shadow.field⟩ (owner.value shadow.field)
      shadow.ciphertext with
  | ok text => exact .pure hcalm _
  | error e =>
    -- A failed verification leaves a gap and a notice; the want of a key ends the reading.
    rcases verified_error hv with rfl | ⟨e', rfl, -⟩
    · exact (note_reads hcalm _).bind (.pure (note_reads hcalm _).reads.calm _)
    · exact .throw hcalm _

theorem serveToken_reads (owner : OwnerId) (field : Field) :
    ReadsAs r (serveToken owner field) v (withhold (storedText v.strict r field.value)) := by
  have hstored := (readStored_reads h field.value).outcome
  have hcalm := hstored.reads.calm
  refine hstored.bind ?_
  cases storedText v.strict r field.value with
  | ok value => exact .pure hcalm _
  | error e =>
    cases e with
    | key e => exact .throw hcalm _
    | _ => exact (note_reads hcalm _).bind (.pure (note_reads hcalm _).reads.calm _)

/-- Items are collected under their names if each is served as its name says. -/
theorem collect_reads {α : Type} {name : α → FieldName} {work : α → Work Served} {owner : Owner}
    {items : List α}
    (hitems : ∀ a ∈ items, ∀ w, Vault.Reads r v w → ReadsAs r (work a) w
      (withhold ((v.store.cell owner.id (name a)).read v.strict r
        ⟨owner.tenant, owner.id, name a⟩))) :
    ReadsAs r (collect name work items) v
      ((items.map name).mapM (v.store.serve v.strict r owner)) := by
  rw [List.mapM_map]
  refine ReadsAs.each h fun a ha w hw => ?_
  have hserve := hitems a ha w hw
  rw [Function.comp_apply, Store.serve]
  cases hread : withhold ((v.store.cell owner.id (name a)).read v.strict r
      ⟨owner.tenant, owner.id, name a⟩) with
  | error e =>
    rw [hread] at hserve
    exact hserve.bind_error _
  | ok served =>
    rw [hread] at hserve
    exact hserve.bind (.pure hserve.reads.calm _)

/-- **Reading an owner** serves each field for what the read of that field answers. -/
theorem loadOwnerPlain_reads {owner : Owner} (ho : v.store.owner? owner.id = some owner) :
    ReadsAs r (loadOwnerPlain owner.id) v
      (((v.store.liveNames owner ++ v.store.tokenNames owner).mapM
        (v.store.serve v.strict r owner)).map (assemble owner)) := by
  have hview := viewOwner_reads h ho
  -- Either pass reads field by field, whatever was noted before it.
  have hlive : ∀ v', Vault.Reads r v v' → ReadsAs r
      (collect Shadow.field (serveShadow owner) (v.store.liveShadows owner)) v'
      ((v.store.liveNames owner).mapM (v.store.serve v.strict r owner)) := by
    intro v' hv'
    rw [← hv'.store, ← hv'.strict]
    refine collect_reads hv'.calm fun sh hsh w hw => ?_
    have hsh' := (Store.mem_liveShadows_iff (hv'.store ▸ ho)).1 hsh
    rw [Cell.read_of_live hsh', Store.stored_cell (hv'.store ▸ ho)]
    exact serveShadow_reads hw.calm owner sh
  have htokens : ∀ v', Vault.Reads r v v' → ReadsAs r
      (collect Field.name (serveToken owner.id) (v.store.tokenFields owner)) v'
      ((v.store.tokenNames owner).mapM (v.store.serve v.strict r owner)) := by
    intro v' hv'
    rw [← hv'.store, ← hv'.strict]
    refine collect_reads hv'.calm fun f hf w hw => ?_
    obtain ⟨hentry, hnone, -⟩ := (Store.mem_tokenFields_iff (hv'.store ▸ ho)).1 hf
    rw [Cell.read_of_not_live hnone, Cell.stored, Store.entry_cell (hv'.store ▸ ho), hentry,
      ← hw.strict]
    exact serveToken_reads hw.calm owner.id f
  rw [loadOwnerPlain_eq]
  refine hview.bind ?_
  have hfirst := hlive _ hview.reads
  -- A failure in the first pass ends the reading; otherwise the second pass decides.
  rw [List.mapM_append]
  cases hl : (v.store.liveNames owner).mapM (v.store.serve v.strict r owner) with
  | error e =>
    rw [hl] at hfirst
    exact hfirst.bind_error _
  | ok fromShadows =>
    rw [hl] at hfirst
    refine hfirst.bind ?_
    have hsecond := htokens _ (hview.reads.trans hfirst.reads)
    cases ht : (v.store.tokenNames owner).mapM (v.store.serve v.strict r owner) with
    | error e =>
      rw [ht] at hsecond
      exact hsecond.bind_error _
    | ok fromTokens =>
      rw [ht] at hsecond
      exact hsecond.bind (.pure hsecond.reads.calm _)

theorem loadOwnerPlain_reads_of_none {id : OwnerId} (ho : v.store.owner? id = none) :
    ReadsAs r (loadOwnerPlain id) v (.error (.store (.ownerNotFound id))) :=
  (viewOwner_reads_of_none h ho).bind_error _

end Owner

end Work

/-! ## Readings -/

theorem Reading.eq_of_parts {a b : Reading} (howner : a.owner = b.owner)
    (hunreadable : a.unreadable = b.unreadable) : a = b := by
  cases a
  cases b
  cases howner
  cases hunreadable
  rfl

theorem Work.entry_assemble (g : FieldName → Option (Option String)) (owner : Owner)
    (names : List FieldName) (field : FieldName) :
    (assemble owner (names.map fun f => (f, g f))).owner.entry field =
      if field ∈ names then some ((g field).getD none) else owner.entry field := by
  rw [assemble, List.foldl_map]
  induction names generalizing owner with
  | nil => rfl
  | cons name names ih =>
    rw [List.foldl_cons, ih]
    -- A later write of the same field writes the same value, so only the last one matters.
    by_cases hmem : field ∈ names
    · rw [if_pos hmem, if_pos (List.mem_cons_of_mem _ hmem)]
    · rw [if_neg hmem]
      by_cases hname : field = name
      · subst hname
        rw [Owner.entry_write_self, if_pos List.mem_cons_self]
      · have hnot : field ∉ name :: names := by
          rw [List.mem_cons]
          rintro (h | h)
          · exact hname h
          · exact hmem h
        rw [Owner.entry_write_of_ne _ hname, if_neg hnot]

theorem Work.head_assemble (owner : Owner) (served : List ServedField) :
    (assemble owner served).owner.id = owner.id ∧
      (assemble owner served).owner.tenant = owner.tenant ∧
      (assemble owner served).owner.serviceAccount = owner.serviceAccount := by
  rw [assemble]
  induction served generalizing owner with
  | nil => exact ⟨rfl, rfl, rfl⟩
  | cons s served ih => exact ih (owner.write s.1 (s.2.getD none))

theorem Work.unreadable_assemble (g : FieldName → Option (Option String)) (owner : Owner)
    (names : List FieldName) :
    (assemble owner (names.map fun f => (f, g f))).unreadable =
      names.filter fun f => (g f).isNone := by
  rw [assemble, List.filter_map, List.map_map]
  exact List.map_id _

namespace Store

variable {s t : Store} {owner owner' : Owner} {field : FieldName}

/-- What reading an owner answers if nothing fails for want of a key. -/
def reading (s : Store) (strict : Bool) (r : Except KeyError Key) (owner : Owner) : Reading :=
  Work.assemble owner ((s.liveNames owner ++ s.tokenNames owner).map fun f =>
    (f, ((s.cell owner.id f).read strict r ⟨owner.tenant, owner.id, f⟩).toOption))

theorem mapM_serve (hkey : ∀ field e,
    (s.cell owner.id field).read strict r ⟨owner.tenant, owner.id, field⟩ ≠ .error (.key e))
    (names : List FieldName) :
    (names.mapM (s.serve strict r owner)).map (Work.assemble owner) =
      .ok (Work.assemble owner (names.map fun f =>
        (f, ((s.cell owner.id f).read strict r ⟨owner.tenant, owner.id, f⟩).toOption))) := by
  -- Without failures for want of a key, serving a field cannot fail.
  have hserve : s.serve strict r owner = fun f =>
      pure (f, ((s.cell owner.id f).read strict r ⟨owner.tenant, owner.id, f⟩).toOption) := by
    funext f
    rw [serve, withhold_of_not_key (hkey f)]
    rfl
  rw [hserve, List.mapM_pure]
  rfl

theorem head_reading (s : Store) (strict : Bool) (r : Except KeyError Key) (owner : Owner) :
    (s.reading strict r owner).owner.id = owner.id ∧
      (s.reading strict r owner).owner.tenant = owner.tenant ∧
      (s.reading strict r owner).owner.serviceAccount = owner.serviceAccount :=
  Work.head_assemble owner _

/-- A field that is served from a shadow record or holds a token has a value. -/
theorem exists_value_of_mem_names (ho : s.owner? owner.id = some owner)
    (h : field ∈ s.liveNames owner ++ s.tokenNames owner) :
    ∃ value, owner.entry field = some (some value) := by
  have hstored : (s.cell owner.id field).stored = (owner.entry field).join := by
    rw [Cell.stored, entry_cell ho]
  rw [List.mem_append, mem_liveNames_iff ho, mem_tokenNames_iff ho, hstored] at h
  simp only [← Option.join_eq_some_iff]
  rcases h with hlive | ⟨-, value, hvalue, -⟩
  · obtain ⟨sh, hsh⟩ := Option.isSome_iff_exists.1 hlive
    have hstale := (Cell.live?_eq_some_iff.1 hsh).2
    rw [hstored] at hstale
    cases hv : (owner.entry field).join with
    | none => simp [hv, isStale] at hstale
    | some value => exact ⟨value, rfl⟩
  · exact ⟨value, hvalue⟩

/-- Any other field reads as it stands. -/
theorem read_of_not_mem_names (ho : s.owner? owner.id = some owner)
    (h : field ∉ s.liveNames owner ++ s.tokenNames owner) :
    (s.cell owner.id field).read strict r ref = .ok (owner.entry field).join := by
  have hstored : (s.cell owner.id field).stored = (owner.entry field).join := by
    rw [Cell.stored, entry_cell ho]
  rw [List.mem_append, mem_liveNames_iff ho, mem_tokenNames_iff ho, hstored, not_or, not_and,
    Option.not_isSome_iff_eq_none] at h
  obtain ⟨hlive, hplain⟩ := h
  rw [Cell.read_of_not_live hlive, hstored]
  cases hv : (owner.entry field).join with
  | none => rfl
  | some value =>
    cases hm : Token.isMarked value with
    | false => exact Cell.storedText_of_not_marked hm
    | true => exact absurd ⟨value, hv, hm⟩ (hplain hlive)

/-- Every field of the record stands for what its cell reads, and is empty where that fails. -/
theorem entry_reading (ho : s.owner? owner.id = some owner) (field : FieldName) :
    (s.reading strict r owner).owner.entry field = (owner.entry field).map fun _ =>
      ((s.cell owner.id field).read strict r ⟨owner.tenant, owner.id, field⟩).toOption.getD
        none := by
  rw [reading, Work.entry_assemble]
  by_cases hnames : field ∈ s.liveNames owner ++ s.tokenNames owner
  · obtain ⟨value, hvalue⟩ := exists_value_of_mem_names ho hnames
    rw [if_pos hnames, hvalue]
    rfl
  · rw [if_neg hnames, read_of_not_mem_names ho hnames]
    cases owner.entry field <;> rfl

/-- Reading the field fails. -/
def isWithheld (s : Store) (strict : Bool) (r : Except KeyError Key) (owner : Owner)
    (field : FieldName) : Bool :=
  ((s.cell owner.id field).read strict r ⟨owner.tenant, owner.id, field⟩).toOption.isNone

theorem isWithheld_iff : s.isWithheld strict r owner field = true ↔
    ∃ e, (s.cell owner.id field).read strict r ⟨owner.tenant, owner.id, field⟩ = .error e := by
  rw [isWithheld]
  cases (s.cell owner.id field).read strict r ⟨owner.tenant, owner.id, field⟩ with
  | ok value => simp [Except.toOption]
  | error e => simp [Except.toOption]

theorem unreadable_reading (s : Store) (strict : Bool) (r : Except KeyError Key)
    (owner : Owner) :
    (s.reading strict r owner).unreadable =
      (s.liveNames owner).filter (s.isWithheld strict r owner) ++
        (s.tokenNames owner).filter (s.isWithheld strict r owner) := by
  rw [reading, Work.unreadable_assemble, List.filter_append]
  rfl

theorem mem_names_of_isWithheld (ho : s.owner? owner.id = some owner)
    (h : s.isWithheld strict r owner field = true) :
    field ∈ s.liveNames owner ++ s.tokenNames owner := by
  by_contra hnames
  rw [isWithheld, read_of_not_mem_names ho hnames] at h
  cases h

/-- A field is listed as unreadable if its read fails. -/
theorem mem_unreadable_iff (ho : s.owner? owner.id = some owner) :
    field ∈ (s.reading strict r owner).unreadable ↔ s.isWithheld strict r owner field = true := by
  rw [unreadable_reading, ← List.filter_append, List.mem_filter, and_iff_right_iff_imp]
  exact mem_names_of_isWithheld ho

/-- Among the fields that cannot be read, tokens are those without a live shadow record. -/
theorem mem_withheld_tokens_iff (ho : s.owner? owner.id = some owner) :
    field ∈ (s.tokenNames owner).filter (s.isWithheld strict r owner) ↔
      (s.cell owner.id field).live?.isSome = false ∧
        s.isWithheld strict r owner field = true := by
  rw [List.mem_filter, and_congr_left_iff]
  intro hwithheld
  have hnames := mem_names_of_isWithheld ho hwithheld
  rw [List.mem_append, mem_liveNames_iff ho] at hnames
  constructor
  · intro htoken
    rw [((mem_tokenNames_iff ho).1 htoken).1]
    rfl
  · intro hlive
    rw [hlive] at hnames
    exact hnames.resolve_left Bool.false_ne_true

/-- **Stores whose cells read alike serve the same**: the same record, and the same names of
unreadable fields in the same order. -/
theorem reading_congr (hs : s.owner? owner.id = some owner) (ht : t.owner? owner.id = some owner')
    (htenant : owner'.tenant = owner.tenant)
    (hservice : owner'.serviceAccount = owner.serviceAccount)
    (hcells : ∀ field, Cell.Alike strict r ⟨owner.tenant, owner.id, field⟩
      (s.cell owner.id field) (t.cell owner.id field)) :
    s.reading strict r owner = t.reading strict r owner' := by
  have hid : owner'.id = owner.id := id_of_owner? ht
  have ht' : t.owner? owner'.id = some owner' := by rw [hid, ht]
  -- The same fields fail, and for each of them the same kind of thing fails.
  have hwithheld : ∀ field,
      s.isWithheld strict r owner field = t.isWithheld strict r owner' field := by
    intro field
    rw [isWithheld, isWithheld, hid, htenant, (hcells field).read]
  have hlive : ∀ field, s.isWithheld strict r owner field = true →
      (s.cell owner.id field).live?.isSome = (t.cell owner'.id field).live?.isSome := by
    intro field hfield
    obtain ⟨e, he⟩ := isWithheld_iff.1 hfield
    rw [hid, (hcells field).live e he]
  have howner : (s.reading strict r owner).owner = (t.reading strict r owner').owner := by
    obtain ⟨hid₁, htenant₁, hservice₁⟩ := head_reading s strict r owner
    obtain ⟨hid₂, htenant₂, hservice₂⟩ := head_reading t strict r owner'
    refine Owner.ext_entry (hid₁.trans (hid.symm.trans hid₂.symm))
      (htenant₁.trans (htenant.symm.trans htenant₂.symm))
      (hservice₁.trans (hservice.symm.trans hservice₂.symm)) ?_
    intro field
    have hpresent := (hcells field).present
    rw [entry_cell hs, entry_cell ht] at hpresent
    rw [entry_reading hs, entry_reading ht', hid, htenant, (hcells field).read]
    cases he : owner.entry field with
    | none =>
      rw [he] at hpresent
      rw [Option.isNone_iff_eq_none.1 (Option.isSome_eq_false_iff.1 hpresent.symm)]
    | some value =>
      rw [he] at hpresent
      obtain ⟨value', hvalue'⟩ := Option.isSome_iff_exists.1 hpresent.symm
      rw [hvalue']
      rfl
  have hlists : (s.reading strict r owner).unreadable = (t.reading strict r owner').unreadable := by
    rw [unreadable_reading, unreadable_reading]
    -- Both passes go in ascending order, so it is enough to compare members.
    congr 1
    · refine ((ascending_liveNames s owner).filter _).eq_of_mem_iff
        ((ascending_liveNames t owner').filter _) ?_
      intro field
      rw [List.mem_filter, List.mem_filter, mem_liveNames_iff hs, mem_liveNames_iff ht', hwithheld,
        and_congr_left_iff]
      intro hfield
      rw [hlive field ((hwithheld field).trans hfield)]
    · refine ((ascending_tokenNames s owner).filter _).eq_of_mem_iff
        ((ascending_tokenNames t owner').filter _) ?_
      intro field
      rw [mem_withheld_tokens_iff hs, mem_withheld_tokens_iff ht', hwithheld, and_congr_left_iff]
      intro hfield
      rw [hlive field ((hwithheld field).trans hfield)]
  exact Reading.eq_of_parts howner hlists

end Store

/-! ## With a key -/

namespace Work

open Vault

variable {k : Key}

/-- With a key at hand every owner that is there can be read. -/
theorem loadOwnerPlain_reads_key (h : v.Calm (.ok k)) {id : OwnerId} {owner : Owner}
    (ho : v.store.owner? id = some owner) :
    ReadsAs (.ok k) (loadOwnerPlain id) v (.ok (v.store.reading v.strict (.ok k) owner)) := by
  have hid := Store.id_of_owner? ho
  subst hid
  have hread := loadOwnerPlain_reads h ho
  rwa [Store.mapM_serve fun field e => Cell.read_ne_key k _ e] at hread

section Congr

variable {w : Vault} {id : OwnerId} (hv : v.Calm (.ok k)) (hw : w.Calm (.ok k))
  (hstrict : w.strict = v.strict) (hhead : w.store.head? id = v.store.head? id)
include hv hw hstrict hhead

/-- A field is read alike in vaults that have its owner, if its cells read alike. -/
theorem answer_loadField_congr {field : FieldName}
    (hread : ∀ tenant,
      (w.store.cell id field).read v.strict (.ok k) ⟨tenant, id, field⟩ =
        (v.store.cell id field).read v.strict (.ok k) ⟨tenant, id, field⟩) :
    answer (loadField id field) w = answer (loadField id field) v := by
  cases ho : v.store.owner? id with
  | none =>
    have hnone := Store.owner?_eq_none_of_head?_eq ho hhead
    rw [(loadField_reads_of_none hv ho field).answer,
      (loadField_reads_of_none hw hnone field).answer]
  | some owner =>
    obtain ⟨owner', ho', htenant, -⟩ := Store.exists_owner_of_head?_eq ho hhead
    rw [(loadField_reads hv ho field).answer, (loadField_reads hw ho' field).answer, hstrict,
      htenant, hread]

/-- An owner is read alike in vaults that have it, if its cells read alike. -/
theorem answer_loadOwnerPlain_congr
    (hcells : ∀ field tenant, Cell.Alike v.strict (.ok k) ⟨tenant, id, field⟩
      (v.store.cell id field) (w.store.cell id field)) :
    answer (loadOwnerPlain id) w = answer (loadOwnerPlain id) v := by
  cases ho : v.store.owner? id with
  | none =>
    have hnone := Store.owner?_eq_none_of_head?_eq ho hhead
    rw [(loadOwnerPlain_reads_of_none hv ho).answer,
      (loadOwnerPlain_reads_of_none hw hnone).answer]
  | some owner =>
    obtain ⟨owner', ho', htenant, hservice⟩ := Store.exists_owner_of_head?_eq ho hhead
    have hid := Store.id_of_owner? ho
    subst hid
    rw [(loadOwnerPlain_reads_key hv ho).answer, (loadOwnerPlain_reads_key hw ho').answer,
      hstrict, Store.reading_congr ho ho' htenant hservice fun field => hcells field _]

end Congr

end Work

end FieldVault

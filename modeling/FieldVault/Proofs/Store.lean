/-
A store as cells.

What a store says of a field of an owner is its cell: the entry in the record of the owner, and the
shadow record beside it. A store consists of its cells and of what it says of each owner apart from
the fields, and two stores that agree on both are equal. Migrations are understood cell by cell.
Every write on the way sets one cell and leaves the others and the heads of the owners as they were,
so what a sequence of writes does follows from which cells it touches.
-/
import FieldVault.Proofs.Registry
import FieldVault.Store

set_option autoImplicit false

open Std

namespace FieldVault

/-! ## Entries of an owner -/

namespace Owner

/-- What a record says of a field: nothing, that it has no value, or its value. -/
def entry (o : Owner) (field : FieldName) : Option (Option String) :=
  (o.fields.find? field).map Field.value

theorem value_eq_join (o : Owner) (field : FieldName) : o.value field = (o.entry field).join := by
  rw [value, entry]
  cases o.fields.find? field <;> rfl

theorem entry_write_self (o : Owner) (field : FieldName) (value : Option String) :
    (o.write field value).entry field = some value := by
  have h : (o.fields.file ⟨field, value⟩).find? field = some ⟨field, value⟩ :=
    Registry.find?_file_self o.fields ⟨field, value⟩
  rw [entry, write, h]
  rfl

theorem entry_write_of_ne (o : Owner) {field other : FieldName} (h : other ≠ field)
    (value : Option String) : (o.write field value).entry other = o.entry other := by
  have hf : (o.fields.file ⟨field, value⟩).find? other = o.fields.find? other :=
    Registry.find?_file_of_ne h
  rw [entry, write, hf, ← entry]

/-- The field of a record is its name with the entry. -/
theorem find?_fields (o : Owner) (field : FieldName) :
    o.fields.find? field = (o.entry field).map (Field.mk field) := by
  rw [entry]
  cases hf : o.fields.find? field with
  | none => rfl
  | some found =>
    have hname : found.name = field := Registry.key_of_find? hf
    rw [Option.map_some, Option.map_some, ← hname]

theorem mem_fields_iff {o : Owner} {field : Field} :
    field ∈ o.fields.toList ↔ o.entry field.name = some field.value := by
  have hkey : key field = field.name := rfl
  rw [Registry.mem_toList_iff, hkey, find?_fields, Option.map_eq_some_iff]
  constructor
  · rintro ⟨value, hvalue, hfield⟩
    rw [hvalue, ← hfield]
  · intro h
    exact ⟨field.value, h, rfl⟩

theorem mem_names_iff {o : Owner} {field : FieldName} :
    field ∈ o.fields.toList.map Field.name ↔ (o.entry field).isSome = true := by
  rw [List.mem_map, Option.isSome_iff_exists]
  constructor
  · rintro ⟨f, hf, rfl⟩
    exact ⟨f.value, mem_fields_iff.1 hf⟩
  · rintro ⟨value, hvalue⟩
    exact ⟨⟨field, value⟩, mem_fields_iff.2 hvalue, rfl⟩

/-- An owner with one field has no other value than the one in it. -/
theorem eq_of_value_single {id : OwnerId} {tenant : TenantId} {service : Bool}
    {name field : FieldName} {text value : String}
    (h : (⟨id, tenant, service, Registry.empty.file ⟨name, some text⟩⟩ : Owner).value field =
      some value) : value = text := by
  by_cases hfield : field = name
  · subst hfield
    exact Option.some.inj (h.symm.trans
      (value_write_self ⟨id, tenant, service, .empty⟩ field (some text)))
  · cases (value_write_of_ne ⟨id, tenant, service, .empty⟩ hfield (some text)).symm.trans h

/-- Owners with equal heads and equal entries are equal. -/
theorem ext_entry {o o' : Owner} (hid : o.id = o'.id) (htenant : o.tenant = o'.tenant)
    (hservice : o.serviceAccount = o'.serviceAccount)
    (hentry : ∀ field, o.entry field = o'.entry field) : o = o' := by
  have hfields : o.fields = o'.fields := by
    apply Registry.ext_find?
    intro field
    rw [find?_fields, find?_fields, hentry]
  cases o
  cases o'
  cases hid
  cases htenant
  cases hservice
  cases hfields
  rfl

end Owner

/-! ## Cells -/

/-- What a store says of one field of one owner. -/
structure Cell where
  entry : Option (Option String)
  shadow : Option Shadow
deriving DecidableEq

/-- The value in the record. -/
def Cell.stored (c : Cell) : Option String := c.entry.join

namespace Store

variable {s t u : Store} {id : OwnerId} {field : FieldName}

/-- The tenant of an owner, and whether it is a service account. -/
def head? (s : Store) (id : OwnerId) : Option (TenantId × Bool) :=
  (s.owner? id).map fun o => (o.tenant, o.serviceAccount)

/-- The cell of a field. -/
def cell (s : Store) (id : OwnerId) (field : FieldName) : Cell :=
  ⟨(s.owner? id).bind (·.entry field), s.shadow? id field⟩

theorem id_of_owner? {o : Owner} (h : s.owner? id = some o) : o.id = id := Registry.key_of_find? h

theorem owner_of_shadow? {sh : Shadow} (h : s.shadow? id field = some sh) : sh.owner = id :=
  congrArg Slot.owner (Registry.key_of_find? h)

theorem field_of_shadow? {sh : Shadow} (h : s.shadow? id field = some sh) : sh.field = field :=
  congrArg Slot.field (Registry.key_of_find? h)

theorem entry_cell {o : Owner} (h : s.owner? id = some o) :
    (s.cell id field).entry = o.entry field := by
  rw [cell, h]
  rfl

theorem stored_cell {o : Owner} (h : s.owner? id = some o) :
    (s.cell id field).stored = o.value field := by
  rw [Cell.stored, entry_cell h, Owner.value_eq_join]

theorem head?_of_owner? {o : Owner} (h : s.owner? id = some o) :
    s.head? id = some (o.tenant, o.serviceAccount) := by
  rw [head?, h]
  rfl

/-- An owner is still there, in its tenant and of its kind, where the heads are the same. -/
theorem exists_owner_of_head?_eq {o : Owner} (h : s.owner? id = some o)
    (hhead : t.head? id = s.head? id) :
    ∃ o', t.owner? id = some o' ∧ o'.tenant = o.tenant ∧
      o'.serviceAccount = o.serviceAccount := by
  rw [head?_of_owner? h, head?, Option.map_eq_some_iff] at hhead
  obtain ⟨o', ho', heq⟩ := hhead
  exact ⟨o', ho', congrArg Prod.fst heq, congrArg Prod.snd heq⟩

theorem owner?_eq_none_of_head?_eq (h : s.owner? id = none) (hhead : t.head? id = s.head? id) :
    t.owner? id = none := by
  rw [head?, head?, h] at hhead
  exact Option.map_eq_none_iff.1 hhead

/-- An owner is read off its head and its cells. -/
theorem owner?_congr (hhead : s.head? id = t.head? id)
    (hcell : ∀ field, (s.cell id field).entry = (t.cell id field).entry) :
    s.owner? id = t.owner? id := by
  cases hs : s.owner? id with
  | none => rw [owner?_eq_none_of_head?_eq hs hhead.symm]
  | some o =>
    obtain ⟨o', ht, htenant, hservice⟩ := exists_owner_of_head?_eq hs hhead.symm
    have hid : o.id = o'.id := (id_of_owner? hs).trans (id_of_owner? ht).symm
    have hentry : ∀ field, o.entry field = o'.entry field := by
      intro field
      rw [← entry_cell hs, ← entry_cell ht, hcell]
    rw [ht, Owner.ext_entry hid htenant.symm hservice.symm hentry]

/-- The records are told by the heads and the entries. -/
theorem owners_congr (hheads : ∀ id, s.head? id = t.head? id)
    (hentries : ∀ id field, (s.cell id field).entry = (t.cell id field).entry) :
    s.owners = t.owners := by
  apply Registry.ext_find?
  intro id
  exact owner?_congr (hheads id) (hentries id)

/-- Stores with equal heads and equal cells are equal. -/
theorem ext_cell (hheads : ∀ id, s.head? id = t.head? id)
    (hcells : ∀ id field, s.cell id field = t.cell id field) : s = t := by
  have howners : s.owners = t.owners :=
    owners_congr hheads fun id field => congrArg Cell.entry (hcells id field)
  have hshadows : s.shadows = t.shadows := by
    apply Registry.ext_find?
    intro slot
    exact congrArg Cell.shadow (hcells slot.owner slot.field)
  cases s
  cases t
  cases howners
  cases hshadows
  rfl

/-- A store with one owner has no other. -/
theorem eq_of_owner?_single {o o' : Owner} (h : (({} : Store).putOwner o).owner? id = some o') :
    o' = o := by
  by_cases hid : id = o.id
  · subst hid
    exact Option.some.inj (h.symm.trans (owner?_putOwner_self {} o))
  · cases (owner?_putOwner_of_ne {} hid).symm.trans h

/-! ## Lists read off a store -/

theorem mem_shadowsOf_iff {sh : Shadow} :
    sh ∈ s.shadowsOf id ↔ s.shadow? id sh.field = some sh := by
  rw [shadowsOf, List.mem_filter, Registry.mem_toList_iff, decide_eq_true_eq]
  constructor
  · rintro ⟨h, rfl⟩
    exact h
  · intro h
    have howner := owner_of_shadow? h
    subst howner
    exact ⟨h, rfl⟩

theorem mem_fields_shadowsOf_iff :
    field ∈ (s.shadowsOf id).map Shadow.field ↔ (s.shadow? id field).isSome = true := by
  rw [List.mem_map, Option.isSome_iff_exists]
  constructor
  · rintro ⟨sh, hsh, rfl⟩
    exact ⟨sh, mem_shadowsOf_iff.1 hsh⟩
  · rintro ⟨sh, hsh⟩
    have hfield := field_of_shadow? hsh
    subst hfield
    exact ⟨sh, mem_shadowsOf_iff.2 hsh, rfl⟩

/-- An owner without shadow records in its cells has none. -/
theorem shadowsOf_eq_nil (h : ∀ field, s.shadow? id field = none) : s.shadowsOf id = [] := by
  rw [List.eq_nil_iff_forall_not_mem]
  intro sh hsh
  rw [mem_shadowsOf_iff, h] at hsh
  cases hsh

theorem shadow?_of_shadowsOf_nil (h : s.shadowsOf id = []) : s.shadow? id field = none := by
  cases hs : s.shadow? id field with
  | none => rfl
  | some sh =>
    have hfield := field_of_shadow? hs
    subst hfield
    have hmem := mem_shadowsOf_iff.2 hs
    rw [h] at hmem
    cases hmem

/-- The shadow records of an owner come in the order of their fields. -/
theorem ascending_fields_shadowsOf (s : Store) (id : OwnerId) :
    Ascending ((s.shadowsOf id).map Shadow.field) := by
  have hsorted : (s.shadowsOf id).Pairwise fun x y => compare (key x) (key y) = .lt :=
    List.Pairwise.filter _ s.shadows.ascending
  refine List.pairwise_map.2 (List.Pairwise.imp_of_mem ?_ hsorted)
  intro x y hx hy hlt
  have hxo : x.owner = id := owner_of_shadow? (mem_shadowsOf_iff.1 hx)
  have hyo : y.owner = id := owner_of_shadow? (mem_shadowsOf_iff.1 hy)
  -- The owners are the same, so the order of the slots is the order of the fields.
  have howners : compareOn Slot.owner (key x) (key y) = .eq := by
    change compare x.owner y.owner = .eq
    rw [hxo, hyo, ReflOrd.compare_self]
  change (compareOn Slot.owner (key x) (key y)).then (compare x.field y.field) = .lt at hlt
  rwa [howners] at hlt

/-- The shadow records of an owner are told by its cells. -/
theorem shadowsOf_congr (h : ∀ field, s.shadow? id field = t.shadow? id field) :
    s.shadowsOf id = t.shadowsOf id := by
  refine eq_of_mem_iff_of_ascending (ascending_fields_shadowsOf s id)
    (ascending_fields_shadowsOf t id) ?_
  intro sh
  rw [mem_shadowsOf_iff, mem_shadowsOf_iff, h]

/-- What a store holds of an owner is told by its head and its cells. -/
theorem owner_congr (hhead : s.head? id = t.head? id)
    (hcells : ∀ field, s.cell id field = t.cell id field) :
    s.owner? id = t.owner? id ∧ s.shadowsOf id = t.shadowsOf id :=
  ⟨owner?_congr hhead fun field => congrArg Cell.entry (hcells field),
    shadowsOf_congr fun field => congrArg Cell.shadow (hcells field)⟩

theorem shadow?_view {o : Owner} :
    (⟨o, s.shadowsOf id⟩ : OwnerView).shadow? field = s.shadow? id field := by
  have hnodup := (ascending_fields_shadowsOf s id).nodup
  rw [OwnerView.shadow?]
  -- The look-up in the list and the one in the store find each other's record.
  cases hf : List.find? (fun sh : Shadow => sh.field = field) (s.shadowsOf id) with
  | some sh =>
    have hmem := mem_shadowsOf_iff.1 (List.mem_of_find?_eq_some hf)
    have hfield : sh.field = field := by simpa using List.find?_some hf
    rw [← hfield, hmem]
  | none =>
    cases hs : s.shadow? id field with
    | none => rfl
    | some sh =>
      have hfield := field_of_shadow? hs
      subst hfield
      have hne := List.find?_eq_none.1 hf sh (mem_shadowsOf_iff.2 hs)
      simp at hne

/-- An owner is seen alike, with its shadow records, where its cells are the same. -/
theorem view?_eq_iff {o : Owner} (h : s.owner? id = some o) (hhead : t.head? id = s.head? id) :
    t.view? id = s.view? id ↔ ∀ field, t.cell id field = s.cell id field := by
  constructor
  · intro hview field
    obtain ⟨o', ht, -⟩ := exists_owner_of_head?_eq h hhead
    rw [view?, view?, ht, h] at hview
    obtain ⟨howner, hshadows⟩ := OwnerView.mk.inj (Option.some.inj hview)
    rw [cell, cell, ht, h, ← shadow?_view (o := o'), ← shadow?_view (o := o), howner, hshadows]
  · intro hcells
    obtain ⟨howner, hshadows⟩ := owner_congr hhead hcells
    rw [view?, view?, howner, hshadows]

theorem mem_ownersIn_iff {tenant : TenantId} :
    id ∈ s.ownersIn tenant ↔ ∃ o, s.owner? id = some o ∧ o.tenant = tenant := by
  rw [ownersIn, List.mem_map]
  constructor
  · rintro ⟨o, ho, rfl⟩
    rw [List.mem_filter, Registry.mem_toList_iff, decide_eq_true_eq] at ho
    exact ⟨o, ho.1, ho.2⟩
  · rintro ⟨o, ho, htenant⟩
    have hid := id_of_owner? ho
    subst hid
    refine ⟨o, ?_, rfl⟩
    rw [List.mem_filter, Registry.mem_toList_iff, decide_eq_true_eq]
    exact ⟨ho, htenant⟩

/-- An owner of a tenant, told by its own id. -/
theorem exists_of_mem_ownersIn {tenant : TenantId} (h : id ∈ s.ownersIn tenant) :
    ∃ o : Owner, o.id = id ∧ s.owner? o.id = some o ∧ o.tenant = tenant := by
  obtain ⟨o, ho, htenant⟩ := mem_ownersIn_iff.1 h
  have hid := id_of_owner? ho
  subst hid
  exact ⟨o, rfl, ho, htenant⟩

theorem ascending_ownersIn (s : Store) (tenant : TenantId) : Ascending (s.ownersIn tenant) :=
  List.pairwise_map.2 (List.Pairwise.filter _ s.owners.ascending)

/-- The owners of a tenant are told by the heads. -/
theorem mem_ownersIn_iff_head? {tenant : TenantId} :
    id ∈ s.ownersIn tenant ↔ (s.head? id).map Prod.fst = some tenant := by
  rw [mem_ownersIn_iff, head?, Option.map_map, Option.map_eq_some_iff]
  rfl

/-- Stores with equal heads have the same owners in a tenant. -/
theorem ownersIn_congr (hheads : ∀ id, s.head? id = t.head? id) (tenant : TenantId) :
    s.ownersIn tenant = t.ownersIn tenant := by
  refine (ascending_ownersIn s tenant).eq_of_mem_iff (ascending_ownersIn t tenant) ?_
  intro id
  rw [mem_ownersIn_iff_head?, mem_ownersIn_iff_head?, hheads]

/-! ## Frames -/

/-- The second store has the same heads as the first, and the same cells except where touched. -/
structure SameOff (touched : OwnerId → FieldName → Prop) (s t : Store) : Prop where
  heads : ∀ id, t.head? id = s.head? id
  cells : ∀ id field, ¬touched id field → t.cell id field = s.cell id field

namespace SameOff

variable {touched wider : OwnerId → FieldName → Prop}

theorem refl (touched : OwnerId → FieldName → Prop) (s : Store) : SameOff touched s s :=
  ⟨fun _ => rfl, fun _ _ _ => rfl⟩

theorem mono (h : SameOff touched s t) (hsub : ∀ id field, touched id field → wider id field) :
    SameOff wider s t :=
  ⟨h.heads, fun id field hn => h.cells id field fun ht => hn (hsub id field ht)⟩

theorem trans (h : SameOff touched s t) (h' : SameOff touched t u) : SameOff touched s u :=
  ⟨fun id => (h'.heads id).trans (h.heads id),
    fun id field hn => (h'.cells id field hn).trans (h.cells id field hn)⟩

/-- An owner none of whose cells is touched stays. -/
theorem owner?_eq (h : SameOff touched s t) (hn : ∀ field, ¬touched id field) :
    t.owner? id = s.owner? id :=
  owner?_congr (h.heads id) fun field => congrArg Cell.entry (h.cells id field (hn field))

theorem view?_eq (h : SameOff touched s t) (hn : ∀ field, ¬touched id field) :
    t.view? id = s.view? id := by
  obtain ⟨howner, hshadows⟩ := owner_congr (h.heads id) fun field => h.cells id field (hn field)
  rw [view?, view?, howner, hshadows]

/-- Nothing has changed if the touched cells have not. -/
theorem eq_of_cells (h : SameOff touched s t)
    (hcells : ∀ id field, touched id field → t.cell id field = s.cell id field) : t = s := by
  refine ext_cell h.heads fun id field => ?_
  by_cases htouched : touched id field
  · exact hcells id field htouched
  · exact h.cells id field htouched

/-- Nothing has changed in a tenant if none of its owners has. -/
theorem eq_of_owners {tenant : TenantId} (h : SameOff (fun id _ => id ∈ s.ownersIn tenant) s t)
    (hcells : ∀ o : Owner, s.owner? o.id = some o → o.tenant = tenant → ∀ field,
      t.cell o.id field = s.cell o.id field) : t = s := by
  refine h.eq_of_cells fun id field hid => ?_
  obtain ⟨o, rfl, ho, htenant⟩ := exists_of_mem_ownersIn hid
  exact hcells o ho htenant field

end SameOff

/-- The second store is the first one with one cell set. -/
structure Sets (s : Store) (id : OwnerId) (field : FieldName) (c : Cell) (t : Store) : Prop where
  off : SameOff (fun id' field' => id' = id ∧ field' = field) s t
  cell : t.cell id field = c

/-- Of two writes to one cell the second counts. -/
theorem Sets.trans {c d : Cell} (h : s.Sets id field c t) (h' : t.Sets id field d u) :
    s.Sets id field d u :=
  ⟨h.off.trans h'.off, h'.cell⟩

/-- A look-up in a store that differs from another in the shadow records only. -/
theorem cell_of_shadows (s : Store) (shadows : Registry Shadow) (id : OwnerId)
    (field : FieldName) :
    ({ s with shadows } : Store).cell id field =
      { s.cell id field with shadow := shadows.find? ⟨id, field⟩ } := rfl

/-! An owner that is put in brings its own head and entries; the shadow records stay. -/

theorem head?_putOwner_self (s : Store) (o : Owner) :
    (s.putOwner o).head? o.id = some (o.tenant, o.serviceAccount) :=
  head?_of_owner? (owner?_putOwner_self s o)

theorem head?_putOwner_of_ne {o : Owner} (h : id ≠ o.id) :
    (s.putOwner o).head? id = s.head? id := by
  rw [head?, owner?_putOwner_of_ne s h, head?]

theorem cell_putOwner_self (s : Store) (o : Owner) (field : FieldName) :
    (s.putOwner o).cell o.id field = ⟨o.entry field, s.shadow? o.id field⟩ := by
  rw [cell, owner?_putOwner_self, Option.bind_some, shadow?_putOwner]

theorem cell_putOwner_of_ne {o : Owner} (h : id ≠ o.id) (field : FieldName) :
    (s.putOwner o).cell id field = s.cell id field := by
  rw [cell, owner?_putOwner_of_ne s h, shadow?_putOwner, cell]

/-- Writing a field of an owner sets the entry of its cell. -/
theorem sets_writeField {o : Owner} (h : s.owner? id = some o) (field : FieldName)
    (value : Option String) :
    ∃ t, s.writeField id field value = .ok t ∧
      s.Sets id field { s.cell id field with entry := some value } t := by
  have hid := id_of_owner? h
  subst hid
  refine ⟨s.putOwner (o.write field value), by rw [writeField, h], ⟨?_, ?_⟩, ?_⟩
  · intro id'
    by_cases hid : id' = o.id
    · subst hid
      rw [head?_of_owner? h]
      exact head?_putOwner_self s (o.write field value)
    · exact head?_putOwner_of_ne (show id' ≠ (o.write field value).id from hid)
  · intro id' field' hn
    -- Another field of the same owner, or a field of another owner.
    by_cases hid : id' = o.id
    · subst hid
      have hne : field' ≠ field := fun hf => hn ⟨rfl, hf⟩
      refine (cell_putOwner_self s (o.write field value) field').trans ?_
      rw [Owner.entry_write_of_ne o hne, cell, h]
      rfl
    · exact cell_putOwner_of_ne (show id' ≠ (o.write field value).id from hid) field'
  · refine (cell_putOwner_self s (o.write field value) field).trans ?_
    rw [Owner.entry_write_self]
    rfl

/-- Filing a shadow record sets the shadow of its cell. -/
theorem sets_fileShadow (s : Store) (sh : Shadow) :
    s.Sets sh.owner sh.field { s.cell sh.owner sh.field with shadow := some sh }
      { s with shadows := s.shadows.file sh } := by
  refine ⟨⟨fun _ => rfl, ?_⟩, ?_⟩
  · intro id' field' hn
    have hne : (⟨id', field'⟩ : Slot) ≠ key sh := by
      intro heq
      exact hn ⟨congrArg Slot.owner heq, congrArg Slot.field heq⟩
    rw [cell_of_shadows, Registry.find?_file_of_ne hne]
    rfl
  · have hself : (s.shadows.file sh).find? ⟨sh.owner, sh.field⟩ = some sh :=
      Registry.find?_file_self s.shadows sh
    rw [cell_of_shadows, hself]

/-- A shadow record of an owner can be put in, unless another record is live in its place. -/
theorem sets_putShadow {o : Owner} {sh : Shadow} (h : s.owner? sh.owner = some o)
    (hlive : ∀ live, s.shadow? sh.owner sh.field = some live → live.id = sh.id) :
    ∃ t, s.putShadow sh = .ok t ∧
      s.Sets sh.owner sh.field { s.cell sh.owner sh.field with shadow := some sh } t := by
  refine ⟨{ s with shadows := s.shadows.file sh }, ?_, sets_fileShadow s sh⟩
  rw [putShadow, h]
  cases hs : s.shadow? sh.owner sh.field with
  | none => rfl
  | some live =>
    simp only
    rw [if_pos (hlive live hs)]

/-- Taking the live shadow record of a field away clears the shadow of its cell. -/
theorem sets_removeShadow {sh : Shadow} (h : s.shadow? id field = some sh) :
    s.Sets id field { s.cell id field with shadow := none } (s.removeShadow sh) := by
  have howner := owner_of_shadow? h
  have hfield := field_of_shadow? h
  subst howner
  subst hfield
  have heq : s.removeShadow sh = { s with shadows := s.shadows.remove sh.slot } := by
    rw [removeShadow, h]
    exact if_pos rfl
  rw [heq]
  refine ⟨⟨fun _ => rfl, ?_⟩, ?_⟩
  · intro id' field' hn
    have hne : (⟨id', field'⟩ : Slot) ≠ sh.slot := by
      intro heq
      exact hn ⟨congrArg Slot.owner heq, congrArg Slot.field heq⟩
    rw [cell_of_shadows, Registry.find?_remove_of_ne hne]
    rfl
  · have hself : (s.shadows.remove sh.slot).find? ⟨sh.owner, sh.field⟩ = none :=
      Registry.find?_remove_self s.shadows sh.slot
    rw [cell_of_shadows, hself]

end Store

end FieldVault

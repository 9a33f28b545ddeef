/-
Stores kept in maps, with the keys beside the records.

A map files whatever it is given under whatever key comes with it, so it could hold a record under
a key that is not the record's own. A store kept in two maps rules this out by what it does: records
are filed as they are loaded or put in, under the key that they carry; a field is written in an
owner that stays where it stands; and a shadow record goes under its own owner and field. So such
maps never hold anything but the entries of a registry, and every operation on them comes to the
operation on registries: the same answers, the same refusals, and the maps of the store it leaves.
-/
import Mathlib
import FieldVault.Proofs.Store.Change

set_option autoImplicit false

open Std

namespace FieldVault

/-! ## Registries as maps -/

/-- Every record of the map stands under its own key. -/
def OwnKeys {α κ : Type} [Keyed α κ] [Ord κ] [TransOrd κ] (m : ExtTreeMap κ α) : Prop :=
  ∀ (k : κ) (x : α), m[k]? = some x → key x = k

namespace Registry

variable {α κ : Type} [Keyed α κ] [Ord κ]

/-- An entry with its key beside it. -/
def beside (x : α) : κ × α := (key x, x)

/-- The map with every entry under its own key. -/
def toMap (r : Registry α) : ExtTreeMap κ α := .ofList (r.toList.map beside)

variable [TransOrd κ] [LawfulEqOrd κ] [DecidableEq κ]

@[simp] theorem getElem?_toMap (r : Registry α) (k : κ) : r.toMap[k]? = r.find? k := by
  cases hfind : r.find? k with
  | some x =>
    -- No other pair has a key that compares equal, so it does not matter that the last one counts.
    obtain ⟨hx, rfl⟩ := find?_eq_some_iff.1 hfind
    refine ExtTreeMap.getElem?_ofList_of_mem ReflOrd.compare_self ?_ (List.mem_map_of_mem hx)
    rw [List.pairwise_map]
    exact r.ascending.imp fun hlt heq => by cases hlt.symm.trans heq
  | none =>
    refine ExtTreeMap.getElem?_ofList_of_contains_eq_false ?_
    have hnone : k ∉ (r.toList.map beside).map Prod.fst := by
      rw [List.map_map, List.mem_map]
      rintro ⟨x, hx, rfl⟩
      cases hfind.symm.trans (mem_toList_iff.1 hx)
    exact List.contains_eq_mem k _ ▸ decide_eq_false hnone

theorem toMap_file (r : Registry α) (x : α) : (r.file x).toMap = r.toMap.insert (key x) x := by
  refine ExtTreeMap.ext_getElem? fun k => ?_
  rw [getElem?_toMap, ExtTreeMap.getElem?_insert]
  by_cases hk : key x = k
  · subst hk
    rw [if_pos ReflOrd.compare_self, find?_file_self]
  · rw [if_neg (mt LawfulEqOrd.eq_of_compare hk), find?_file_of_ne (Ne.symm hk), getElem?_toMap]

theorem toMap_remove (r : Registry α) (k : κ) : (r.remove k).toMap = r.toMap.erase k := by
  refine ExtTreeMap.ext_getElem? fun l => ?_
  rw [getElem?_toMap, ExtTreeMap.getElem?_erase]
  by_cases hl : k = l
  · subst hl
    rw [if_pos ReflOrd.compare_self, find?_remove_self]
  · rw [if_neg (mt LawfulEqOrd.eq_of_compare hl), find?_remove_of_ne (Ne.symm hl), getElem?_toMap]

/-- Collecting records with their keys into a map files them one after the other. -/
theorem toMap_ofList (xs : List α) : (ofList xs).toMap = ExtTreeMap.ofList (xs.map beside) := by
  rw [ExtTreeMap.ofList_eq_foldl, List.foldl_map, ofList]
  exact (List.foldl_hom toMap fun r x => (toMap_file r x).symm).symm

/-- The map lists the entries in their order. -/
theorem toList_toMap (r : Registry α) : r.toMap.toList = r.toList.map beside := by
  refine eq_of_mem_iff_of_ascending (f := Prod.fst) ?_ ?_ fun p => ?_
  · exact List.pairwise_map.2 r.toMap.ordered_keys_toList
  · rw [List.map_map]
    exact r.ascending_keys
  · obtain ⟨k, x⟩ := p
    rw [ExtTreeMap.mem_toList_iff_getElem?_eq_some, getElem?_toMap, find?_eq_some_iff,
      List.mem_map]
    constructor
    · rintro ⟨hx, rfl⟩
      exact ⟨x, hx, rfl⟩
    · rintro ⟨y, hy, heq⟩
      cases heq
      exact ⟨hy, rfl⟩

theorem records_toMap (r : Registry α) : r.toMap.toList.map Prod.snd = r.toList := by
  rw [toList_toMap, List.map_map]
  exact List.map_id _

/-- The maps of registries are those with every record under its own key. -/
theorem exists_toMap_iff {m : ExtTreeMap κ α} : (∃ r : Registry α, r.toMap = m) ↔ OwnKeys m := by
  constructor
  · rintro ⟨r, rfl⟩ k x h
    rw [getElem?_toMap] at h
    exact key_of_find? h
  · intro hown
    have hown' : ∀ p ∈ m.toList, key p.2 = p.1 := fun p hp =>
      hown p.1 p.2 (ExtTreeMap.mem_toList_iff_getElem?_eq_some.1 hp)
    have hasc : Ascending ((m.toList.map Prod.snd).map key) := by
      have hkeys : m.toList.map (key ∘ Prod.snd) = m.toList.map Prod.fst :=
        List.map_congr_left hown'
      rw [List.map_map, hkeys]
      exact List.pairwise_map.2 m.ordered_keys_toList
    -- The registry is read off the map, and what it puts beside its entries is what stood there.
    refine ⟨⟨m.toList.map Prod.snd, List.pairwise_map.1 hasc⟩, ?_⟩
    rw [← ExtTreeMap.toList_inj, toList_toMap]
    change (m.toList.map Prod.snd).map beside = m.toList
    rw [List.map_map]
    conv_rhs => rw [← List.map_id m.toList]
    exact List.map_congr_left fun p hp => Prod.ext (hown' p hp) rfl

end Registry

/-! ## Stores in maps -/

/-- A store in two maps. -/
structure Maps where
  owners : ExtTreeMap OwnerId Owner
  shadows : ExtTreeMap Slot Shadow

namespace Maps

/-- The store of a snapshot, collected into maps. -/
def ofLists (owners : List Owner) (shadows : List Shadow) : Maps :=
  ⟨.ofList (owners.map fun o => (o.id, o)),
    .ofList (shadows.map fun sh => ((⟨sh.owner, sh.field⟩ : Slot), sh))⟩

/-- The owners, in the order of what they stand under. -/
def ownerList (m : Maps) : List Owner := m.owners.toList.map Prod.snd

/-- The shadow records, in the order of what they stand under. -/
def shadowList (m : Maps) : List Shadow := m.shadows.toList.map Prod.snd

/-- What stands under the id of an owner. -/
def owner? (m : Maps) (id : OwnerId) : Option Owner := m.owners[id]?

/-- What stands under the slot of a field. -/
def shadow? (m : Maps) (owner : OwnerId) (field : FieldName) : Option Shadow :=
  m.shadows[(⟨owner, field⟩ : Slot)]?

/-- The shadow records that name an owner. -/
def shadowsOf (m : Maps) (owner : OwnerId) : List Shadow := m.shadowList.filter (·.owner = owner)

/-- The ids that the owners of a tenant carry. -/
def ownersIn (m : Maps) (tenant : TenantId) : List OwnerId :=
  (m.ownerList.filter (·.tenant = tenant)).map (·.id)

/-- The ids that the owners of a tenant with exactly this value carry. -/
def holders (m : Maps) (tenant : TenantId) (field : FieldName) (value : String) : List OwnerId :=
  (m.ownerList.filter fun o => o.tenant = tenant ∧ o.value field = some value).map (·.id)

/-- What stands under an id, with the shadow records that name the id. -/
def view? (m : Maps) (id : OwnerId) : Option OwnerView :=
  (m.owner? id).map fun owner => ⟨owner, m.shadowsOf id⟩

/-- Puts an owner in under the id that it carries. -/
def putOwner (m : Maps) (owner : Owner) : Maps :=
  { m with owners := m.owners.insert owner.id owner }

/-- Sets a field of the owner under an id, where it stands. -/
def writeField (m : Maps) (id : OwnerId) (field : FieldName) (value : Option String) :
    Except StoreError Maps :=
  if id ∈ m.owners then .ok { m with owners := m.owners.modify id (·.write field value) }
  else .error (.ownerNotFound id)

/-- Puts a shadow record in under its owner and field. -/
def putShadow (m : Maps) (shadow : Shadow) : Except StoreError Maps :=
  if shadow.owner ∈ m.owners then
    let slot : Slot := ⟨shadow.owner, shadow.field⟩
    match m.shadows[slot]? with
    | some live =>
      if live.id ≠ shadow.id then
        .error (.backend s!"duplicate shadow record for {slot.owner}|{slot.field}")
      else .ok { m with shadows := m.shadows.insert slot shadow }
    | none => .ok { m with shadows := m.shadows.insert slot shadow }
  else .error (.ownerNotFound shadow.owner)

/-- Takes away what stands under the owner and field of a shadow record, if it has its id. -/
def removeShadow (m : Maps) (shadow : Shadow) : Maps :=
  let slot : Slot := ⟨shadow.owner, shadow.field⟩
  if m.shadows[slot]?.any (·.id = shadow.id) then { m with shadows := m.shadows.erase slot } else m

/-- One change of a store in maps. -/
inductive Change : Maps → Maps → Prop where
  | putOwner (m : Maps) (owner : Owner) : Change m (m.putOwner owner)
  | writeField {m n : Maps} (id : OwnerId) (field : FieldName) (value : Option String)
      (h : m.writeField id field value = .ok n) : Change m n
  | putShadow {m n : Maps} (sh : Shadow) (h : m.putShadow sh = .ok n) : Change m n
  | removeShadow (m : Maps) (sh : Shadow) : Change m (m.removeShadow sh)

/-- The maps answer every question as the store does. -/
structure Shows (m : Maps) (s : Store) : Prop where
  owners : m.ownerList = s.owners.toList
  shadows : m.shadowList = s.shadows.toList
  owner? : ∀ id, m.owner? id = s.owner? id
  shadow? : ∀ owner field, m.shadow? owner field = s.shadow? owner field
  shadowsOf : ∀ owner, m.shadowsOf owner = s.shadowsOf owner
  ownersIn : ∀ tenant, m.ownersIn tenant = s.ownersIn tenant
  holders : ∀ tenant field value, m.holders tenant field value = s.holders tenant field value
  view? : ∀ id, m.view? id = s.view? id

end Maps

namespace Store

variable {s t : Store}

/-- The maps of a store. -/
def maps (s : Store) : Maps := ⟨s.owners.toMap, s.shadows.toMap⟩

/-! ## Answers -/

theorem owner?_maps (s : Store) (id : OwnerId) : s.maps.owner? id = s.owner? id :=
  s.owners.getElem?_toMap id

theorem shadow?_maps (s : Store) (owner : OwnerId) (field : FieldName) :
    s.maps.shadow? owner field = s.shadow? owner field :=
  s.shadows.getElem?_toMap _

theorem shows_maps (s : Store) : s.maps.Shows s := by
  have howners : s.maps.ownerList = s.owners.toList := s.owners.records_toMap
  have hshadows : s.maps.shadowList = s.shadows.toList := s.shadows.records_toMap
  have hshadowsOf : ∀ owner, s.maps.shadowsOf owner = s.shadowsOf owner := by
    intro owner
    rw [Maps.shadowsOf, hshadows, shadowsOf]
  refine ⟨howners, hshadows, owner?_maps s, shadow?_maps s, hshadowsOf, ?_, ?_, ?_⟩
  · intro tenant
    rw [Maps.ownersIn, howners, ownersIn]
  · intro tenant field value
    rw [Maps.holders, howners, holders]
  · intro id
    rw [Maps.view?, owner?_maps, hshadowsOf, view?]

/-! ## Changes -/

theorem maps_ofLists (owners : List Owner) (shadows : List Shadow) :
    (ofLists owners shadows).maps = .ofLists owners shadows := by
  rw [maps, ofLists, Registry.toMap_ofList, Registry.toMap_ofList]
  rfl

theorem maps_putOwner (s : Store) (owner : Owner) :
    (s.putOwner owner).maps = s.maps.putOwner owner := by
  rw [maps, putOwner, Registry.toMap_file]
  rfl

theorem mem_owners_maps {id : OwnerId} : id ∈ s.maps.owners ↔ ∃ o, s.owner? id = some o := by
  rw [ExtTreeMap.mem_iff_isSome_getElem?, Option.isSome_iff_exists]
  exact exists_congr fun o => by rw [← owner?_maps]; rfl

theorem writeField_maps (s : Store) (id : OwnerId) (field : FieldName) (value : Option String) :
    s.maps.writeField id field value = (s.writeField id field value).map maps := by
  unfold Maps.writeField writeField
  cases howner : s.owner? id with
  | none =>
    rw [if_neg (mem_owners_maps.not.2 (by simp [howner]))]
    rfl
  | some owner =>
    obtain rfl := id_of_owner? howner
    rw [if_pos (mem_owners_maps.2 ⟨owner, howner⟩)]
    -- The owner that is written where it stands is the owner that is put in again.
    have hmodify : s.maps.owners.modify owner.id (·.write field value) =
        s.maps.owners.insert owner.id (owner.write field value) := by
      refine ExtTreeMap.ext_getElem? fun k => ?_
      have hfound : s.maps.owners[owner.id]? = some owner := (owner?_maps s owner.id).trans howner
      rw [ExtTreeMap.getElem?_modify, ExtTreeMap.getElem?_insert, hfound]
      rfl
    rw [hmodify]
    exact congrArg Except.ok (maps_putOwner s (owner.write field value)).symm

theorem maps_fileShadow (s : Store) (sh : Shadow) :
    ({ s with shadows := s.shadows.file sh } : Store).maps =
      { s.maps with shadows := s.maps.shadows.insert ⟨sh.owner, sh.field⟩ sh } := by
  rw [maps, Registry.toMap_file]
  rfl

theorem putShadow_maps (s : Store) (sh : Shadow) :
    s.maps.putShadow sh = (s.putShadow sh).map maps := by
  have hfound : s.maps.shadows[(⟨sh.owner, sh.field⟩ : Slot)]? = s.shadow? sh.owner sh.field :=
    shadow?_maps s sh.owner sh.field
  unfold Maps.putShadow putShadow
  cases howner : s.owner? sh.owner with
  | none =>
    rw [if_neg (mem_owners_maps.not.2 (by simp [howner]))]
    rfl
  | some owner =>
    rw [if_pos (mem_owners_maps.2 ⟨owner, howner⟩)]
    cases hlive : s.shadow? sh.owner sh.field with
    | none => simp only [hfound, hlive, ← maps_fileShadow, Except.map]
    | some live =>
      by_cases hid : live.id = sh.id
      · simp only [hfound, hlive, hid, ← maps_fileShadow, Except.map, ne_eq, not_true, if_true,
          if_false]
      · simp only [hfound, hlive, hid, Except.map, ne_eq, not_false_eq_true, if_true, if_false]

theorem maps_removeShadow (s : Store) (sh : Shadow) :
    (s.removeShadow sh).maps = s.maps.removeShadow sh := by
  have hfound : s.maps.shadows[(⟨sh.owner, sh.field⟩ : Slot)]? = s.shadow? sh.owner sh.field :=
    shadow?_maps s sh.owner sh.field
  unfold Maps.removeShadow removeShadow
  cases hlive : s.shadow? sh.owner sh.field with
  | none => simp [hfound, hlive]
  | some live =>
    by_cases hid : live.id = sh.id
    · simp only [hfound, hlive, hid, Option.any_some, decide_true, if_true]
      rw [maps, Registry.toMap_remove]
      rfl
    · simp [hfound, hlive, hid]

/-- A change that is made in maps is one that is made in the store. -/
theorem exists_of_map_maps {x : Except StoreError Store} {n : Maps} (h : x.map maps = .ok n) :
    ∃ t, x = .ok t ∧ t.maps = n := by
  cases x with
  | error e => cases h
  | ok t => exact ⟨t, rfl, Except.ok.inj h⟩

/-- The changes of the maps of a store are the maps of its changes. -/
theorem change_maps_iff {n : Maps} : s.maps.Change n ↔ ∃ t, s.Change t ∧ t.maps = n := by
  constructor
  · intro h
    cases h with
    | putOwner owner => exact ⟨_, .putOwner s owner, maps_putOwner s owner⟩
    | writeField id field value hwrite =>
      rw [writeField_maps] at hwrite
      obtain ⟨t, ht, rfl⟩ := exists_of_map_maps hwrite
      exact ⟨t, .writeField id field value ht, rfl⟩
    | putShadow sh hput =>
      rw [putShadow_maps] at hput
      obtain ⟨t, ht, rfl⟩ := exists_of_map_maps hput
      exact ⟨t, .putShadow sh ht, rfl⟩
    | removeShadow sh => exact ⟨_, .removeShadow s sh, maps_removeShadow s sh⟩
  · rintro ⟨t, h, rfl⟩
    cases h with
    | putOwner owner => exact maps_putOwner s owner ▸ .putOwner s.maps owner
    | writeField id field value hwrite =>
      exact .writeField id field value (by rw [writeField_maps, hwrite]; rfl)
    | putShadow sh hput => exact .putShadow sh (by rw [putShadow_maps, hput]; rfl)
    | removeShadow sh => exact maps_removeShadow s sh ▸ .removeShadow s.maps sh

open Relation (ReflTransGen)

/-- **Maps never hold anything but a store.** What a snapshot and any number of changes make of two
maps are the maps of what they make of a store, and the other way round. -/
theorem maps_reached_iff (owners : List Owner) (shadows : List Shadow) (m : Maps) :
    ReflTransGen Maps.Change (.ofLists owners shadows) m ↔
      ∃ s, ReflTransGen Change (.ofLists owners shadows) s ∧ s.maps = m := by
  constructor
  · intro h
    induction h with
    | refl => exact ⟨_, .refl, maps_ofLists owners shadows⟩
    | tail _ hchange ih =>
      obtain ⟨s, hs, rfl⟩ := ih
      obtain ⟨t, ht, rfl⟩ := change_maps_iff.1 hchange
      exact ⟨t, hs.tail ht, rfl⟩
  · rintro ⟨s, h, rfl⟩
    induction h with
    | refl => exact maps_ofLists owners shadows ▸ .refl
    | tail _ hchange ih => exact ih.tail (change_maps_iff.2 ⟨_, hchange, rfl⟩)

/-- Hence everything in them stands under its own key, and they answer as a store does. -/
theorem maps_of_reached {owners : List Owner} {shadows : List Shadow} {m : Maps}
    (h : ReflTransGen Maps.Change (.ofLists owners shadows) m) :
    OwnKeys m.owners ∧ OwnKeys m.shadows ∧
      ∃ s, ReflTransGen Change (.ofLists owners shadows) s ∧ m.Shows s := by
  obtain ⟨s, hs, rfl⟩ := (maps_reached_iff owners shadows m).1 h
  exact ⟨Registry.exists_toMap_iff.1 ⟨_, rfl⟩, Registry.exists_toMap_iff.1 ⟨_, rfl⟩, s, hs,
    shows_maps s⟩

end Store

end FieldVault

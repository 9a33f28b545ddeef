/-
What operations make of a store.

Four operations change a store: an owner is put in, a field of one is written, a shadow record is
put in or taken away. A shadow record is put in for an owner that is there and keeps the id of the
record it replaces, if any; it is taken away by its id. So whatever is changed and however often,
every owner stays, and a shadow record without an owner was there from the start, without one.
Where things are filed is not at stake: entries carry their keys, and all look-ups of a shadow
record agree in every store.
-/
import FieldVault.Proofs.Store

set_option autoImplicit false

namespace FieldVault.Store

variable {s t u : Store} {id : OwnerId} {field : FieldName} {sh live : Shadow}

/-! ## One look-up told by another -/

/-- Owners and shadow records are found under their own keys and nowhere else, and no key has
two. -/
structure Filed (s : Store) : Prop where
  owners : ∀ id o, s.owner? id = some o ↔ o ∈ s.owners.toList ∧ o.id = id
  shadows : ∀ id field sh,
    s.shadow? id field = some sh ↔ sh ∈ s.shadows.toList ∧ sh.owner = id ∧ sh.field = field
  nodup_ids : (s.owners.toList.map Owner.id).Nodup
  nodup_slots : (s.shadows.toList.map Shadow.slot).Nodup

theorem filed (s : Store) : s.Filed := by
  refine ⟨fun id o => Registry.find?_eq_some_iff, fun id field sh => ?_,
    s.owners.nodup_keys, s.shadows.nodup_keys⟩
  have hkey : key sh = ⟨id, field⟩ ↔ sh.owner = id ∧ sh.field = field := by
    change sh.slot = ⟨id, field⟩ ↔ _
    rw [Shadow.slot, Slot.mk.injEq]
  rw [shadow?, Registry.find?_eq_some_iff, hkey]

/-- The ways to ask for the shadow record of a field give one answer. -/
structure Agrees (s : Store) : Prop where
  listed : ∀ id field, (s.shadowsOf id).filter (·.field = field) = (s.shadow? id field).toList
  viewed : ∀ id o, s.owner? id = some o →
    ∃ view, s.view? id = some view ∧ ∀ field, view.shadow? field = s.shadow? id field

/-- The records of an owner that are of one field are those found under the field. -/
theorem filter_shadowsOf (s : Store) (id : OwnerId) (field : FieldName) :
    (s.shadowsOf id).filter (·.field = field) = (s.shadow? id field).toList := by
  refine eq_of_mem_iff_of_ascending (f := Shadow.field) ?_ ?_ fun sh => ?_
  · exact List.Pairwise.sublist (List.filter_sublist.map _) (ascending_fields_shadowsOf s id)
  · cases s.shadow? id field with
    | none => exact .nil
    | some sh => exact List.pairwise_singleton _ _
  · rw [List.mem_filter, mem_shadowsOf_iff, decide_eq_true_eq, Option.mem_toList]
    constructor
    · rintro ⟨h, rfl⟩
      exact h
    · intro h
      have hfield := field_of_shadow? h
      subst hfield
      exact ⟨h, rfl⟩

theorem agrees (s : Store) : s.Agrees := by
  refine ⟨filter_shadowsOf s, fun id o ho => ?_⟩
  refine ⟨⟨o, s.shadowsOf id⟩, ?_, fun field => shadow?_view⟩
  rw [view?, ho]
  rfl

/-! ## Putting shadow records in -/

theorem putShadow_of_no_owner (h : s.owner? sh.owner = none) :
    s.putShadow sh = .error (.ownerNotFound sh.owner) := by
  rw [putShadow, h]

theorem putShadow_of_other {o : Owner} (ho : s.owner? sh.owner = some o)
    (hlive : s.shadow? sh.owner sh.field = some live) (hne : live.id ≠ sh.id) :
    s.putShadow sh =
      .error (.backend s!"duplicate shadow record for {sh.owner}|{sh.field}") := by
  unfold putShadow
  simp only [ho, hlive, if_neg hne]

/-- A shadow record that is put in has an owner, and the id of the record that was live. -/
theorem exists_of_putShadow (h : s.putShadow sh = .ok t) :
    (∃ o, s.owner? sh.owner = some o) ∧
      (∀ live, s.shadow? sh.owner sh.field = some live → live.id = sh.id) ∧
      t = { s with shadows := s.shadows.file sh } := by
  by_cases howner : ∃ o, s.owner? sh.owner = some o
  · obtain ⟨o, ho⟩ := howner
    have hids : ∀ live, s.shadow? sh.owner sh.field = some live → live.id = sh.id := by
      intro live hlive
      by_contra hne
      rw [putShadow_of_other ho hlive hne] at h
      cases h
    refine ⟨⟨o, ho⟩, hids, ?_⟩
    unfold putShadow at h
    split at h
    · cases h
    · split at h
      · split at h
        · exact (Except.ok.inj h).symm
        · cases h
      · exact (Except.ok.inj h).symm
  · rw [putShadow_of_no_owner (Option.eq_none_iff_forall_ne_some.2 fun o ho => howner ⟨o, ho⟩)] at h
    cases h

/-- A shadow record that is put in leaves the other slots alone. -/
theorem shadow?_of_putShadow_of_ne (h : s.putShadow sh = .ok t)
    (hne : ¬(id = sh.owner ∧ field = sh.field)) : t.shadow? id field = s.shadow? id field := by
  obtain ⟨-, -, rfl⟩ := exists_of_putShadow h
  exact congrArg Cell.shadow ((sets_fileShadow s sh).off.cells id field hne)

/-- No slot changes the id of its record. -/
theorem id_of_putShadow (h : s.putShadow sh = .ok t) (hlive : s.shadow? id field = some live) :
    ∃ now, t.shadow? id field = some now ∧ now.id = live.id := by
  by_cases hslot : id = sh.owner ∧ field = sh.field
  · obtain ⟨rfl, rfl⟩ := hslot
    exact ⟨sh, shadow?_of_putShadow h, ((exists_of_putShadow h).2.1 live hlive).symm⟩
  · exact ⟨live, by rw [shadow?_of_putShadow_of_ne h hslot, hlive], rfl⟩

/-! ## Taking shadow records away -/

/-- A handle with another id takes nothing away. -/
theorem removeShadow_of_other
    (h : ∀ live, s.shadow? sh.owner sh.field = some live → live.id ≠ sh.id) :
    s.removeShadow sh = s := by
  unfold removeShadow
  cases hlive : s.shadow? sh.owner sh.field with
  | none => rfl
  | some live => simp only [if_neg (h live hlive)]

/-- What is there after a removal was there before. -/
theorem shadow?_of_removeShadow {found : Shadow}
    (h : (s.removeShadow sh).shadow? id field = some found) : s.shadow? id field = some found := by
  by_cases hlive : ∃ live, s.shadow? sh.owner sh.field = some live ∧ live.id = sh.id
  · obtain ⟨live, hlive, hid⟩ := hlive
    have heq : s.removeShadow sh = { s with shadows := s.shadows.remove sh.slot } := by
      unfold removeShadow
      simp only [hlive, if_pos hid]
    rw [heq] at h
    by_cases hslot : (⟨id, field⟩ : Slot) = sh.slot
    · rw [shadow?, hslot, Registry.find?_remove_self] at h
      cases h
    · exact (Registry.find?_remove_of_ne hslot).symm.trans h
  · rwa [removeShadow_of_other fun live hl hid => hlive ⟨live, hl, hid⟩] at h

@[simp] theorem owner?_removeShadow (s : Store) (sh : Shadow) (id : OwnerId) :
    (s.removeShadow sh).owner? id = s.owner? id := by
  unfold removeShadow
  split
  · split <;> rfl
  · rfl

/-! ## Changes -/

/-- One change of a store. -/
inductive Change : Store → Store → Prop where
  | putOwner (s : Store) (owner : Owner) : Change s (s.putOwner owner)
  | writeField {s t : Store} (id : OwnerId) (field : FieldName) (value : Option String)
      (h : s.writeField id field value = .ok t) : Change s t
  | putShadow {s t : Store} (sh : Shadow) (h : s.putShadow sh = .ok t) : Change s t
  | removeShadow (s : Store) (sh : Shadow) : Change s (s.removeShadow sh)

/-- Every change keeps the property. -/
def Stable (P : Store → Prop) : Prop := ∀ s t, Change s t → P s → P t

/-- All owners are still there, and the shadow records without owners are old ones. -/
structure NoNewOrphans (s t : Store) : Prop where
  owners : ∀ id, t.owner? id = none → s.owner? id = none
  orphans : ∀ id field sh, t.owner? id = none → t.shadow? id field = some sh →
    s.shadow? id field = some sh

theorem NoNewOrphans.refl (s : Store) : NoNewOrphans s s := ⟨fun _ h => h, fun _ _ _ _ h => h⟩

theorem NoNewOrphans.trans (h : NoNewOrphans s t) (h' : NoNewOrphans t u) : NoNewOrphans s u :=
  ⟨fun id hu => h.owners id (h'.owners id hu), fun id field sh hu hsh =>
    h.orphans id field sh (h'.owners id hu) (h'.orphans id field sh hu hsh)⟩

theorem putOwner_noNewOrphans (s : Store) (o : Owner) : NoNewOrphans s (s.putOwner o) := by
  refine ⟨fun id h => ?_, fun id field sh _ h => h⟩
  by_cases hid : id = o.id
  · subst hid
    rw [owner?_putOwner_self] at h
    cases h
  · rwa [owner?_putOwner_of_ne s hid] at h

/-- No change takes an owner away or makes a shadow record without one. -/
theorem Change.noNewOrphans (h : Change s t) : NoNewOrphans s t := by
  cases h with
  | putOwner owner => exact putOwner_noNewOrphans s owner
  | writeField id field value hwrite =>
    -- A field that was written belongs to an owner that was put in again.
    unfold Store.writeField at hwrite
    split at hwrite
    · cases hwrite
    · cases hwrite
      exact putOwner_noNewOrphans s _
  | putShadow sh hput =>
    obtain ⟨⟨o, ho⟩, -, rfl⟩ := exists_of_putShadow hput
    refine ⟨fun _ hnone => hnone, fun id field found hnone hfound => ?_⟩
    have hslot : ¬(id = sh.owner ∧ field = sh.field) := by
      rintro ⟨rfl, -⟩
      cases hnone.symm.trans ho
    rwa [shadow?_of_putShadow_of_ne hput hslot] at hfound
  | removeShadow sh =>
    refine ⟨fun id hnone => ?_, fun _ _ _ _ hfound => shadow?_of_removeShadow hfound⟩
    rwa [owner?_removeShadow] at hnone

theorem stable_noNewOrphans (s : Store) : Stable (NoNewOrphans s) := fun _ _ hchange h =>
  h.trans hchange.noNewOrphans

end FieldVault.Store

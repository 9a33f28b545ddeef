/-
Records are read field by field as they were written.

The names of a record are its own, so each of them occurs once and finds its value, whatever the
values are. A value read under a name that a record was written with is therefore the value written
there, and what a record or a list is made of decides whether there is a number in it.
-/
import FieldVault.Json.Record
import FieldVault.Proofs.Json.Spelling
import Mathlib.Data.List.Basic

set_option autoImplicit false

namespace FieldVault.Json

variable {members : List (String × Json)}

/-! ## Fields -/

/-- A name that occurs once finds its value. -/
theorem fieldOf?_of_mem (hnodup : (members.map Prod.fst).Nodup) {name : String} {value : Json}
    (h : (name, value) ∈ members) :
    fieldOf? (members.map fun m => (some m.1, m.2)) name = some (some value) := by
  have hfilter : (members.map fun m => (some m.1, m.2)).filter (·.1 = some name) =
      [(some name, value)] := by
    induction members with
    | nil => cases h
    | cons m ms ih =>
      obtain ⟨hnew, hrest⟩ := List.nodup_cons.1 hnodup
      rcases List.mem_cons.1 h with rfl | hmem
      · have hnone : (ms.map fun m => (some m.1, m.2)).filter (·.1 = some name) = [] := by
          refine List.filter_eq_nil_iff.2 fun m' hm' => ?_
          obtain ⟨m, hm, rfl⟩ := List.mem_map.1 hm'
          have hne : m.1 ≠ name := fun e => hnew (List.mem_map.2 ⟨m, hm, e⟩)
          simpa using hne
        rw [List.map_cons, List.filter_cons_of_pos (by simp only [decide_true]), hnone]
      · have hne : m.1 ≠ name := fun e => hnew (List.mem_map.2 ⟨_, hmem, e.symm⟩)
        rw [List.map_cons, List.filter_cons_of_neg (by simpa using hne), ih hrest hmem]
  rw [fieldOf?, hfilter]

/-- The fields of a record are the values that it was written with. -/
theorem fields?_record (hnodup : (members.map Prod.fst).Nodup) :
    fields? (members.map Prod.fst) (record members) = some (members.map fun m => some m.2) := by
  have hnames : (members.map fun m => (some m.1, m.2)).all (·.1.isSome) = true := by
    rw [List.all_map]
    exact List.all_eq_true.2 fun _ _ => rfl
  have hvalues : ∀ ms ⊆ members, (ms.map Prod.fst).mapM
      (fieldOf? (members.map fun m => (some m.1, m.2))) = some (ms.map fun m => some m.2) := by
    intro ms hms
    induction ms with
    | nil => rfl
    | cons m ms ih =>
      have hmem : m ∈ members := hms List.mem_cons_self
      have hrest : ms ⊆ members := fun x hx => hms (List.mem_cons_of_mem m hx)
      rw [List.map_cons, List.mapM_cons, fieldOf?_of_mem hnodup hmem, ih hrest]
      rfl
  rw [record, fields?, if_pos hnames, hvalues members fun _ hm => hm]

/-- The members of a record are the members that it was written with. -/
theorem asMembers?_record (members : List (String × Json)) :
    asMembers? (record members) = some members := by
  rw [record, asMembers?, List.mapM_map]
  induction members with
  | nil => rfl
  | cons m ms ih =>
    rw [List.mapM_cons, ih]
    rfl

theorem asOptionalText?_optional (s : Option String) : asOptionalText? (optional s) = some s := by
  cases s with
  | none => rfl
  | some s => rfl

/-! ## Values without numbers -/

theorem numberless_array {items : List Json} (h : ∀ item ∈ items, item.numberless = true) :
    (array items).numberless = true := by
  rw [numberless]
  induction items with
  | nil => rfl
  | cons item items ih =>
    rw [numberlessItems, h item List.mem_cons_self,
      ih fun x hx => h x (List.mem_cons_of_mem item hx)]
    rfl

theorem numberless_record (h : ∀ m ∈ members, m.2.numberless = true) :
    (record members).numberless = true := by
  rw [record, numberless]
  induction members with
  | nil => rfl
  | cons m ms ih =>
    rw [List.map_cons, numberlessMembers, h m List.mem_cons_self,
      ih fun x hx => h x (List.mem_cons_of_mem m hx)]
    rfl

theorem numberless_optional (s : Option String) : (optional s).numberless = true := by
  cases s with
  | none => rfl
  | some s => rfl

end FieldVault.Json

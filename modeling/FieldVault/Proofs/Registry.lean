/-
Registries are determined by their look-ups.

The entries stand in strictly ascending order of their keys, so an entry is found under its key and
nowhere else, no key comes twice, and two lists in that order with the same members are one list.
The last fact carries over to whatever is read off a registry in order: names of fields, names of
shadow records, ids of owners.
-/
import Mathlib.Data.List.Induction
import Mathlib.Data.List.Sort
import FieldVault.Registry

set_option autoImplicit false

open Std

namespace FieldVault

/-! ## Ascending lists -/

section Ascending

variable {κ : Type} [Ord κ]

/-- The items stand in strictly ascending order. -/
def Ascending (l : List κ) : Prop := l.Pairwise fun a b => compare a b = .lt

theorem Ascending.filter {l : List κ} (h : Ascending l) (p : κ → Bool) : Ascending (l.filter p) :=
  List.Pairwise.filter p h

variable [TransOrd κ]

theorem Ascending.nodup {l : List κ} (h : Ascending l) : l.Nodup := by
  refine List.Pairwise.imp ?_ h
  intro a b hab heq
  rw [heq, ReflOrd.compare_self] at hab
  cases hab

/-- An ascending list starts with the least of its members. -/
theorem Ascending.eq_cons_iff {l : List κ} (h : Ascending l) {a : κ} :
    (∃ rest, l = a :: rest) ↔ a ∈ l ∧ ∀ b ∈ l, compare b a ≠ .lt := by
  constructor
  · rintro ⟨rest, rfl⟩
    refine ⟨List.mem_cons_self, fun b hb hlt => ?_⟩
    rcases List.mem_cons.1 hb with rfl | hb
    · rw [ReflOrd.compare_self] at hlt
      cases hlt
    · exact OrientedCmp.not_lt_of_lt hlt ((List.pairwise_cons.1 h).1 b hb)
  · rintro ⟨hmem, hleast⟩
    cases l with
    | nil => cases hmem
    | cons b rest =>
      rcases List.mem_cons.1 hmem with rfl | hrest
      · exact ⟨rest, rfl⟩
      · exact absurd ((List.pairwise_cons.1 h).1 a hrest) (hleast b List.mem_cons_self)

/-- Two lists with the same members are equal if what is read off each of them is ascending. -/
theorem eq_of_mem_iff_of_ascending {α : Type} {f : α → κ} {l m : List α}
    (hl : Ascending (l.map f)) (hm : Ascending (m.map f)) (h : ∀ a, a ∈ l ↔ a ∈ m) : l = m := by
  have hperm : l.Perm m :=
    (List.perm_ext_iff_of_nodup (.of_map f hl.nodup) (.of_map f hm.nodup)).2 h
  refine List.Perm.eq_of_pairwise ?_ (List.pairwise_map.1 hl) (List.pairwise_map.1 hm) hperm
  intro a b _ _ hab hba
  exact absurd hba (OrientedCmp.not_lt_of_lt hab)

/-- Two ascending lists with the same members are equal. -/
theorem Ascending.eq_of_mem_iff {l m : List κ} (hl : Ascending l) (hm : Ascending m)
    (h : ∀ a, a ∈ l ↔ a ∈ m) : l = m := by
  rw [← List.map_id l] at hl
  rw [← List.map_id m] at hm
  exact eq_of_mem_iff_of_ascending hl hm h

end Ascending

/-! ## Registries -/

namespace Registry

variable {α κ : Type} [Keyed α κ] [Ord κ]

theorem ascending_keys (r : Registry α) : Ascending (r.toList.map key) :=
  List.pairwise_map.2 r.ascending

variable [TransOrd κ]

theorem nodup_keys (r : Registry α) : (r.toList.map key).Nodup := r.ascending_keys.nodup

variable [DecidableEq κ]

/-- What is found under a key is the entry that carries it. -/
theorem find?_eq_some_iff {r : Registry α} {k : κ} {x : α} :
    r.find? k = some x ↔ x ∈ r.toList ∧ key x = k := by
  constructor
  · intro h
    exact ⟨List.mem_of_find?_eq_some h, key_of_find? h⟩
  · rintro ⟨hx, rfl⟩
    -- Something is found, since `x` itself would do; it carries the same key, so it is `x`.
    cases hf : r.find? (key x) with
    | none =>
      have hnone := List.find?_eq_none.1 hf x hx
      simp at hnone
    | some y =>
      have hy : y ∈ r.toList := List.mem_of_find?_eq_some hf
      rw [List.inj_on_of_nodup_map r.nodup_keys hy hx (key_of_find? hf)]

theorem mem_toList_iff {r : Registry α} {x : α} : x ∈ r.toList ↔ r.find? (key x) = some x := by
  rw [find?_eq_some_iff]
  simp only [and_true]

/-- Of the entries filed under one key the last one is found. -/
theorem find?_ofList [LawfulEqOrd κ] (xs : List α) (k : κ) :
    (ofList xs).find? k = xs.reverse.find? (key · = k) := by
  induction xs using List.reverseRecOn with
  | nil => rfl
  | append_singleton xs x ih =>
    have hlast : ofList (xs ++ [x]) = (ofList xs).file x := by
      simp only [ofList, List.foldl_append, List.foldl_cons, List.foldl_nil]
    rw [hlast, List.reverse_append, List.reverse_singleton, List.singleton_append,
      List.find?_cons]
    by_cases hk : key x = k
    · subst hk
      simp only [find?_file_self, decide_true]
    · rw [find?_file_of_ne (Ne.symm hk), ih, decide_eq_false hk]

/-- Of the entries filed under one key the last one is kept. -/
theorem mem_toList_ofList_iff [LawfulEqOrd κ] {xs : List α} {x : α} :
    x ∈ (ofList xs).toList ↔ (xs.filter (key · = key x)).getLast? = some x := by
  rw [mem_toList_iff, find?_ofList, ← List.head?_filter, List.filter_reverse,
    List.head?_reverse]

omit [DecidableEq κ] in
/-- Two registries with the same entries are equal. -/
theorem ext_mem {r s : Registry α} (h : ∀ x, x ∈ r.toList ↔ x ∈ s.toList) : r = s := by
  have hentries : r.entries = s.entries :=
    eq_of_mem_iff_of_ascending r.ascending_keys s.ascending_keys h
  cases r
  cases s
  cases hentries
  rfl

/-- Two registries that answer every look-up alike are equal. -/
theorem ext_find? {r s : Registry α} (h : ∀ k, r.find? k = s.find? k) : r = s := by
  refine ext_mem fun x => ?_
  rw [mem_toList_iff, mem_toList_iff, h]

/-- A registry is what its own entries are filed as. -/
theorem ofList_toList [LawfulEqOrd κ] (r : Registry α) : ofList r.toList = r := by
  refine ext_mem fun x => ?_
  rw [mem_toList_ofList_iff]
  constructor
  · intro h
    exact (List.mem_filter.1 (List.mem_of_getLast? h)).1
  · intro hx
    have hx' : x ∈ r.toList.filter (key · = key x) := List.mem_filter.2 ⟨hx, decide_eq_true rfl⟩
    -- The last entry under the key of `x` carries that key, so it is `x`.
    have hne := List.ne_nil_of_mem hx'
    have hy := List.getLast?_eq_some_getLast hne
    obtain ⟨hmem, hkey⟩ := List.mem_filter.1 (List.mem_of_getLast? hy)
    rw [hy, List.inj_on_of_nodup_map r.nodup_keys hmem hx (of_decide_eq_true hkey)]

end Registry

end FieldVault

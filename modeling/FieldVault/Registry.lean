/-
Entries filed under their own keys, in ascending order of the keys.

Owners are filed under their ids, the fields of an owner under their names, shadow records under
owner and field. The key is a part of the entry, so an entry cannot stand under a key that is not
its own; the order is strict, so no key has two entries. Both are facts about every registry, not
about the ways to build one, and they make registries extensional: two that answer every look-up
alike are equal.
-/

set_option autoImplicit false

open Std

namespace FieldVault

/-- Every entry of type `α` carries a key of type `κ`. -/
class Keyed (α : Type) (κ : outParam Type) where
  key : α → κ

export Keyed (key)

/-- Entries in strictly ascending order of their keys. -/
structure Registry (α : Type) {κ : Type} [Keyed α κ] [Ord κ] where
  entries : List α
  ascending : entries.Pairwise fun x y => compare (key x) (key y) = .lt

namespace Registry

variable {α κ : Type} [Keyed α κ] [Ord κ]

instance [DecidableEq α] : DecidableEq (Registry α) := fun r s =>
  if h : r.entries = s.entries then
    isTrue (by cases r; cases s; cases h; rfl)
  else isFalse fun e => h (congrArg entries e)

/-- The registry without entries. -/
def empty : Registry α := ⟨[], .nil⟩

/-- The entries in ascending order. -/
def toList (r : Registry α) : List α := r.entries

/-- The number of entries. -/
def size (r : Registry α) : Nat := r.entries.length

/-- The entry under a key. -/
def find? [DecidableEq κ] (r : Registry α) (k : κ) : Option α := r.entries.find? (key · = k)

/-! ## Filing -/

/-- Puts an entry into an ascending list, in place of one with the same key. -/
def place (x : α) : List α → List α
  | [] => [x]
  | y :: ys =>
    match compare (key x) (key y) with
    | .lt => x :: y :: ys
    | .eq => x :: ys
    | .gt => y :: place x ys

theorem mem_of_mem_place {x z : α} {l : List α} (h : z ∈ place x l) : z = x ∨ z ∈ l := by
  fun_induction place x l with
  | case1 => simpa using h
  | case2 y ys _ => simpa using h
  | case3 y ys _ =>
    rcases List.mem_cons.1 h with h | h
    · exact .inl h
    · exact .inr (List.mem_cons_of_mem _ h)
  | case4 y ys _ ih =>
    rcases List.mem_cons.1 h with h | h
    · exact .inr (h ▸ List.mem_cons_self)
    · exact (ih h).imp id (List.mem_cons_of_mem _)

theorem ascending_place [TransOrd κ] (x : α) {l : List α}
    (h : l.Pairwise fun x y => compare (key x) (key y) = .lt) :
    (place x l).Pairwise fun x y => compare (key x) (key y) = .lt := by
  fun_induction place x l with
  | case1 => simp
  | case2 y ys hlt =>
    have hy := (List.pairwise_cons.1 h).1
    refine List.pairwise_cons.2 ⟨fun z hz => ?_, h⟩
    rcases List.mem_cons.1 hz with rfl | hz
    · exact hlt
    · exact TransCmp.lt_trans hlt (hy z hz)
  | case3 y ys heq =>
    obtain ⟨hy, hys⟩ := List.pairwise_cons.1 h
    exact List.pairwise_cons.2 ⟨fun z hz => TransCmp.lt_of_eq_of_lt heq (hy z hz), hys⟩
  | case4 y ys hgt ih =>
    obtain ⟨hy, hys⟩ := List.pairwise_cons.1 h
    refine List.pairwise_cons.2 ⟨fun z hz => ?_, ih hys⟩
    rcases mem_of_mem_place hz with rfl | hz
    · exact OrientedCmp.lt_of_gt hgt
    · exact hy z hz

/-- Files an entry, in place of one with the same key. -/
def file [TransOrd κ] (r : Registry α) (x : α) : Registry α :=
  ⟨place x r.entries, ascending_place x r.ascending⟩

/-- Files entries one after the other, so that of equal keys the last one stays. -/
def ofList [TransOrd κ] (xs : List α) : Registry α := xs.foldl file empty

/-- Takes the entry under a key away. -/
def remove [DecidableEq κ] (r : Registry α) (k : κ) : Registry α :=
  ⟨r.entries.filter (key · ≠ k), r.ascending.filter _⟩

/-! ## Look-ups after filing and removing -/

theorem key_of_find? [DecidableEq κ] {r : Registry α} {k : κ} {x : α} (h : r.find? k = some x) :
    key x = k := by
  simpa using List.find?_some h

theorem find?_place_self [DecidableEq κ] [TransOrd κ] (x : α) (l : List α) :
    (place x l).find? (key · = key x) = some x := by
  fun_induction place x l with
  | case1 => simp
  | case2 y ys _ => simp
  | case3 y ys _ => simp
  | case4 y ys hgt ih =>
    have hk : key y ≠ key x := fun e => by simp [e, ReflOrd.compare_self] at hgt
    simpa [hk] using ih

theorem find?_place_of_ne [DecidableEq κ] [LawfulEqOrd κ] {x : α} {k : κ} (hk : k ≠ key x)
    (l : List α) : (place x l).find? (key · = k) = l.find? (key · = k) := by
  have hx : key x ≠ k := Ne.symm hk
  fun_induction place x l with
  | case1 => simp [hx]
  | case2 y ys _ => simp [hx]
  | case3 y ys heq =>
    have hy : key y ≠ k := fun e => hk (e ▸ (LawfulEqOrd.eq_of_compare heq).symm)
    simp [hx, hy]
  | case4 y ys _ ih => simp only [List.find?_cons, ih]

/-- A filed entry is found under its key. -/
@[simp] theorem find?_file_self [DecidableEq κ] [TransOrd κ] (r : Registry α) (x : α) :
    (r.file x).find? (key x) = some x :=
  find?_place_self x r.entries

/-- Filing an entry leaves the other keys alone. -/
theorem find?_file_of_ne [DecidableEq κ] [TransOrd κ] [LawfulEqOrd κ] {r : Registry α} {x : α}
    {k : κ} (h : k ≠ key x) : (r.file x).find? k = r.find? k :=
  find?_place_of_ne h r.entries

/-- Nothing is found under a removed key. -/
@[simp] theorem find?_remove_self [DecidableEq κ] (r : Registry α) (k : κ) :
    (r.remove k).find? k = none := by
  simp [find?, remove]

/-- Removing a key leaves the other keys alone. -/
theorem find?_remove_of_ne [DecidableEq κ] {r : Registry α} {k l : κ} (h : l ≠ k) :
    (r.remove k).find? l = r.find? l := by
  simp only [find?, remove, List.find?_filter]
  congr 1
  funext x
  by_cases hx : key x = l
  · simp [hx, h]
  · simp [hx]

end Registry

end FieldVault

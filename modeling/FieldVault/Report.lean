/-
What a migration reports.

Reports add up: the report of several steps is the sum of theirs, with the failures one after the
other. The empty report is the neutral element and addition is associative, so it does not matter
how the steps are grouped.
-/
import FieldVault.FieldRef

set_option autoImplicit false

namespace FieldVault

/-- Counts of a migration, and the fields that failed verification. -/
@[ext] structure Report where
  ownersVisited : Nat := 0
  fieldsChanged : Nat := 0
  serviceAccountsSkipped : Nat := 0
  /-- Values in scope that have the shape of a lookup hash already. -/
  hashedSkipped : Nat := 0
  failures : List FieldRef := []
deriving DecidableEq

namespace Report

/-- The sum of two reports. -/
def add (r s : Report) : Report :=
  ⟨r.ownersVisited + s.ownersVisited, r.fieldsChanged + s.fieldsChanged,
    r.serviceAccountsSkipped + s.serviceAccountsSkipped, r.hashedSkipped + s.hashedSkipped,
    r.failures ++ s.failures⟩

instance : Add Report := ⟨add⟩

/-- One field changed. -/
def oneChanged : Report := { fieldsChanged := 1 }

/-- The sum of some reports, in order. -/
def sum (rs : List Report) : Report := rs.foldl add {}

theorem add_def (r s : Report) : r + s = r.add s := rfl

@[simp] theorem add_empty (r : Report) : r + {} = r := by
  simp [add_def, add]

@[simp] theorem empty_add (r : Report) : {} + r = r := by
  simp [add_def, add]

theorem add_assoc (r s t : Report) : r + s + t = r + (s + t) := by
  simp [add_def, add, Nat.add_assoc]

end Report

end FieldVault

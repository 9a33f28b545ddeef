/-
Blank texts are those of White_Space alone.

Trimming and the test for blankness go by a class of characters that is given by ranges. Here the
class is listed in full, and a text is blank, and passed over as if it were not there, if and only
if all of its characters are on the list.
-/
import FieldVault.Text.Blank

set_option autoImplicit false

namespace FieldVault.Text

/-- The twenty-five code points that have the Unicode property White_Space. -/
def whiteSpace : List Nat := [
  0x09, 0x0A, 0x0B, 0x0C, 0x0D, 0x20, 0x85, 0xA0, 0x1680, 0x2000, 0x2001, 0x2002, 0x2003, 0x2004,
  0x2005, 0x2006, 0x2007, 0x2008, 0x2009, 0x200A, 0x2028, 0x2029, 0x202F, 0x205F, 0x3000]

theorem isWhiteSpace_iff (c : Char) : isWhiteSpace c = true ↔ c.toNat ∈ whiteSpace := by
  simp only [isWhiteSpace, whiteSpace, Bool.or_eq_true, Bool.and_eq_true, decide_eq_true_eq,
    beq_iff_eq, List.mem_cons, List.not_mem_nil, or_false]
  omega

/-- The text holds nothing but white space, if anything at all. -/
def Blank (s : String) : Prop := ∀ c ∈ s.toList, c.toNat ∈ whiteSpace

theorem isBlank_iff (s : String) : isBlank s = true ↔ Blank s := by
  simp only [isBlank, Blank, List.all_eq_true, isWhiteSpace_iff]

/-- There is no text, or a blank one. -/
def Absent (s : Option String) : Prop := ∀ t, s = some t → Blank t

theorem nonBlank_of_not_blank {s : String} (h : ¬Blank s) : nonBlank (some s) = some s := by
  rw [← isBlank_iff] at h
  simp only [nonBlank, Option.filter_some, h, Bool.not_false, if_true]

theorem nonBlank_of_absent {s : Option String} (h : Absent s) : nonBlank s = none := by
  rw [nonBlank, Option.filter_eq_none_iff]
  intro t ht
  simp only [(isBlank_iff t).2 (h t ht), Bool.not_true, Bool.false_eq_true, not_false_iff]

/-- A text is absent, or it is there and is not blank. -/
theorem absent_or_not_blank (s : Option String) : Absent s ∨ ∃ t, s = some t ∧ ¬Blank t := by
  by_cases h : ∃ t, s = some t ∧ ¬Blank t
  · exact .inr h
  · exact .inl fun t ht => Classical.byContradiction fun hblank => h ⟨t, ht, hblank⟩

end FieldVault.Text

/-
The text of a record id is read back.

An id is written with hyphens, and that form is tried first, so the other forms never get a say.
Hyphens are put between groups of any sizes and taken out again, by induction on the sizes; what is
left are digits, and these are the bytes of the id.
-/
import Mathlib.Algebra.GroupWithZero.Nat
import FieldVault.Proofs.Bytes
import FieldVault.Proofs.Bytes.Hex
import FieldVault.RecordId

set_option autoImplicit false

namespace FieldVault.RecordId

/-! ## Hyphens -/

/-- Hyphens between groups are found again where they were put. -/
theorem unhyphenate?_hyphenate (ns : List Nat) {cs : List Char} (h : cs.length = ns.sum) :
    unhyphenate? ns (hyphenate ns cs) = some cs := by
  induction ns generalizing cs with
  | nil =>
    have hcs : cs = [] := List.eq_nil_of_length_eq_zero h
    rw [hyphenate, unhyphenate?, if_pos rfl, hcs]
  | cons n ns ih =>
    have hlength : cs.length = n + ns.sum := h
    cases ns with
    | nil =>
      rw [List.sum_nil, Nat.add_zero] at hlength
      rw [hyphenate, unhyphenate?, List.take_of_length_le (Nat.le_of_eq hlength), if_pos hlength]
    | cons m ms =>
      have hgroup : (cs.take n).length = n := List.length_take_of_le (by omega)
      have hrest : (cs.drop n).length = (m :: ms).sum := by
        rw [List.length_drop]
        omega
      rw [hyphenate, unhyphenate?, List.drop_left' hgroup, List.take_left' hgroup]
      · simp only [ih hrest, Option.map_some, List.take_append_drop]
      · exact fun e => nomatch e
      · exact fun e => nomatch e

/-! ## Digits -/

theorem ofDigits?_digits (id : RecordId) : ofDigits? (Hex.digits id.block.toList) = some id := by
  have hgroup : Block.ofList? id.block.toList = some id.block := by
    have hbytes := Block.group_bytes [id.block]
    rw [Block.bytes_cons, Block.bytes, List.flatMap_nil, List.append_nil] at hbytes
    rw [Block.ofList?, hbytes]
    exact if_pos (Block.toList_length id.block)
  rw [ofDigits?, Hex.bytes?_digits]
  simp only [Option.bind_eq_bind, Option.bind_some, hgroup, Option.pure_def]

/-! ## The text -/

/-- The text of an id is read as the id. -/
theorem parse?_text (id : RecordId) : parse? id.text = some id := by
  have hlength : (Hex.digits id.block.toList).length = groupSizes.sum := by
    rw [Hex.length_digits, Block.toList_length]
    rfl
  have hread : ofHyphenated? id.text.toList = some id := by
    rw [text, String.toList_ofList, ofHyphenated?, unhyphenate?_hyphenate groupSizes hlength]
    exact ofDigits?_digits id
  rw [parse?, hread]
  rfl

end FieldVault.RecordId

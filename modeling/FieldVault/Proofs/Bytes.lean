/-
Bytes, words and blocks: what grouping loses, and how exclusive or cancels.

Grouping drops a short tail, so it is undone by listing the bytes only where there is none. Listing
is undone by grouping always. A group at the front can be split off without looking at the rest,
which is how a byte string is taken apart block by block.
-/
import FieldVault.Bytes

set_option autoImplicit false

namespace FieldVault

/-- A fact about each of the 256 bytes, from a check of the numbers below 256. -/
theorem forall_byte {P : UInt8 → Prop} (h : ∀ n < 256, P (UInt8.ofNat n)) (b : UInt8) : P b := by
  have hb := h b.toNat b.toNat_lt
  rwa [UInt8.ofNat_toNat] at hb

namespace Word

/-- The first word of a group is the first four bytes. -/
theorem eq_append_of_group {bs : Bytes} {w : Word} {ws : List Word} (h : group bs = w :: ws) :
    ∃ tail, bs = w.toList ++ tail ∧ group tail = ws := by
  match bs with
  | b0 :: b1 :: b2 :: b3 :: rest =>
    simp only [group, List.cons.injEq] at h
    obtain ⟨rfl, hws⟩ := h
    exact ⟨rest, rfl, hws⟩
  | [] | [_] | [_, _] | [_, _, _] => simp [group] at h

theorem length_group (bs : Bytes) (h : bs.length % 4 = 0) : 4 * (group bs).length = bs.length := by
  rw [← length_bytes, bytes_group bs h]

/-- A word added twice cancels. -/
theorem xor_xor_cancel (v w : Word) : (v.xor w).xor w = v := by
  cases v
  cases w
  simp only [xor, UInt8.xor_assoc, UInt8.xor_self, UInt8.xor_zero]

end Word

namespace Block

/-- The four words of a block, in order. -/
def words (b : Block) : List Word := [b.w0, b.w1, b.w2, b.w3]

theorem bytes_eq_bytes_words (bs : List Block) : bytes bs = Word.bytes (bs.flatMap words) := by
  induction bs with
  | nil => rfl
  | cons b bs ih =>
    rw [bytes_cons, ih, List.flatMap_cons]
    simp [words, toList, Word.bytes]

/-- Putting the words of blocks together gives the blocks back. -/
theorem ofWords_flatMap_words (bs : List Block) : ofWords (bs.flatMap words) = bs := by
  induction bs with
  | nil => rfl
  | cons b bs ih => rw [List.flatMap_cons, words, List.cons_append, List.cons_append,
      List.cons_append, List.cons_append, List.nil_append, ofWords, ih]

/-- Putting words together loses nothing if they make whole blocks. -/
theorem flatMap_words_ofWords (ws : List Word) (h : ws.length % 4 = 0) :
    (ofWords ws).flatMap words = ws := by
  fun_induction ofWords ws with
  | case1 w0 w1 w2 w3 rest ih =>
    have hr : rest.length % 4 = 0 := by simp only [List.length_cons] at h; omega
    rw [List.flatMap_cons, ih hr]
    rfl
  | case2 ws hn =>
    match ws with
    | [] => rfl
    | [_] | [_, _] | [_, _, _] => simp at h
    | w0 :: w1 :: w2 :: w3 :: rest => exact absurd rfl (hn w0 w1 w2 w3 rest)

/-- Grouping the bytes of blocks gives the blocks back. -/
theorem group_bytes (bs : List Block) : group (bytes bs) = bs := by
  rw [group, bytes_eq_bytes_words, Word.group_bytes, ofWords_flatMap_words]

/-- Grouping loses nothing of a byte string that is a whole number of blocks. -/
theorem bytes_group (bs : Bytes) (h : bs.length % size = 0) : bytes (group bs) = bs := by
  have h16 : bs.length % 16 = 0 := h
  have hwords := Word.length_group bs (by omega)
  rw [bytes_eq_bytes_words, group, flatMap_words_ofWords _ (by omega),
    Word.bytes_group bs (by omega)]

/-- A block in front is the first of the group. -/
theorem group_toList_append (b : Block) (rest : Bytes) :
    group (b.toList ++ rest) = b :: group rest := rfl

/-- The first block of a group is the first sixteen bytes. -/
theorem eq_append_of_group {bs : Bytes} {b : Block} {rest : List Block} (h : group bs = b :: rest) :
    ∃ tail, bs = b.toList ++ tail ∧ group tail = rest := by
  rw [group] at h
  match hw : Word.group bs with
  | w0 :: w1 :: w2 :: w3 :: ws =>
    obtain ⟨t0, rfl, h0⟩ := Word.eq_append_of_group hw
    obtain ⟨t1, rfl, h1⟩ := Word.eq_append_of_group h0
    obtain ⟨t2, rfl, h2⟩ := Word.eq_append_of_group h1
    obtain ⟨t3, rfl, h3⟩ := Word.eq_append_of_group h2
    simp only [hw, ofWords, List.cons.injEq] at h
    obtain ⟨rfl, rfl⟩ := h
    refine ⟨t3, ?_, by rw [group, h3]⟩
    simp [toList]
  | [] | [_] | [_, _] | [_, _, _] => simp [hw, ofWords] at h

/-- Sixteen bytes or more hold a block. -/
theorem exists_group_eq_cons {bs : Bytes} (h : size ≤ bs.length) :
    ∃ b rest, group bs = b :: rest := by
  match bs, h with
  | b0 :: b1 :: b2 :: b3 :: b4 :: b5 :: b6 :: b7 :: b8 :: b9 :: b10 :: b11 :: b12 :: b13 ::
      b14 :: b15 :: rest, _ => exact ⟨_, _, rfl⟩

/-- A block added twice cancels. -/
theorem xor_xor_cancel (a b : Block) : (a.xor b).xor b = a := by
  simp only [xor, Word.xor_xor_cancel]

end Block

end FieldVault

/-
Bytes in groups of four and of sixteen.

Everything below the text level works on lists of bytes: digests read them as 32-bit words, the
block cipher as sixteen-byte blocks. A group is a structure with one field per byte, so its size is
part of its type and nothing below ever meets a short block. `Word.group` and `Block.group` cut a
list into groups and drop a short tail; on a list whose length is a whole number of groups they
lose nothing, and they undo `Word.bytes` and `Block.bytes` on every list of groups.
-/

set_option autoImplicit false

namespace FieldVault

/-- A byte string. -/
abbrev Bytes := List UInt8

/-! ## Words -/

/-- Four bytes, in order. -/
structure Word where
  b0 : UInt8
  b1 : UInt8
  b2 : UInt8
  b3 : UInt8
deriving DecidableEq

namespace Word

/-- The four bytes of a word. -/
def toList (w : Word) : Bytes := [w.b0, w.b1, w.b2, w.b3]

/-- The same function on each byte. -/
def map (f : UInt8 → UInt8) (w : Word) : Word := ⟨f w.b0, f w.b1, f w.b2, f w.b3⟩

/-- Bitwise exclusive or, byte by byte. -/
def xor (v w : Word) : Word := ⟨v.b0 ^^^ w.b0, v.b1 ^^^ w.b1, v.b2 ^^^ w.b2, v.b3 ^^^ w.b3⟩

/-- The bytes moved one place to the left, the first one to the end. -/
def rotate (w : Word) : Word := ⟨w.b1, w.b2, w.b3, w.b0⟩

/-- The word as a number, first byte highest. -/
def bigEndian (w : Word) : UInt32 :=
  (w.b0.toUInt32 <<< 24) ||| (w.b1.toUInt32 <<< 16) ||| (w.b2.toUInt32 <<< 8) ||| w.b3.toUInt32

/-- The word as a number, first byte lowest. -/
def littleEndian (w : Word) : UInt32 :=
  (w.b3.toUInt32 <<< 24) ||| (w.b2.toUInt32 <<< 16) ||| (w.b1.toUInt32 <<< 8) ||| w.b0.toUInt32

/-- The bytes of a number, highest first. -/
def ofBigEndian (n : UInt32) : Word :=
  ⟨(n >>> 24).toUInt8, (n >>> 16).toUInt8, (n >>> 8).toUInt8, n.toUInt8⟩

/-- The bytes of a number, lowest first. -/
def ofLittleEndian (n : UInt32) : Word :=
  ⟨n.toUInt8, (n >>> 8).toUInt8, (n >>> 16).toUInt8, (n >>> 24).toUInt8⟩

/-- Cuts a byte string into words and drops a tail shorter than a word. -/
def group : Bytes → List Word
  | b0 :: b1 :: b2 :: b3 :: rest => ⟨b0, b1, b2, b3⟩ :: group rest
  | _ => []

/-- The bytes of a list of words, in order. -/
def bytes (ws : List Word) : Bytes := ws.flatMap toList

end Word

/-! ## Blocks -/

/-- Sixteen bytes as four words: a cipher block, an initialisation vector, a record id. -/
structure Block where
  w0 : Word
  w1 : Word
  w2 : Word
  w3 : Word
deriving DecidableEq

namespace Block

/-- The number of bytes in a block. -/
def size : Nat := 16

/-- The sixteen bytes of a block. -/
def toList (b : Block) : Bytes := b.w0.toList ++ b.w1.toList ++ b.w2.toList ++ b.w3.toList

/-- The same function on each byte. -/
def map (f : UInt8 → UInt8) (b : Block) : Block := ⟨b.w0.map f, b.w1.map f, b.w2.map f, b.w3.map f⟩

/-- Bitwise exclusive or, byte by byte. -/
def xor (a b : Block) : Block :=
  ⟨a.w0.xor b.w0, a.w1.xor b.w1, a.w2.xor b.w2, a.w3.xor b.w3⟩

/-- Puts words together four at a time and drops a tail shorter than a block. -/
def ofWords : List Word → List Block
  | w0 :: w1 :: w2 :: w3 :: rest => ⟨w0, w1, w2, w3⟩ :: ofWords rest
  | _ => []

/-- Cuts a byte string into blocks and drops a tail shorter than a block. -/
def group (bs : Bytes) : List Block := ofWords (Word.group bs)

/-- The bytes of a list of blocks, in order. -/
def bytes (bs : List Block) : Bytes := bs.flatMap toList

/-- The block of zeros. -/
def zero : Block := ⟨⟨0, 0, 0, 0⟩, ⟨0, 0, 0, 0⟩, ⟨0, 0, 0, 0⟩, ⟨0, 0, 0, 0⟩⟩

/-- The 128-bit number `n`, highest byte first; a larger number loses its high bits. -/
def ofNat (n : Nat) : Block :=
  let word (shift : Nat) : Word := Word.ofBigEndian (UInt32.ofNat (n >>> shift))
  ⟨word 96, word 64, word 32, word 0⟩

/-- Exactly sixteen bytes as a block. -/
def ofList? (bs : Bytes) : Option Block :=
  match group bs with
  | [b] => if bs.length = size then some b else none
  | _ => none

end Block

/-! ## Grouping and its inverse -/

namespace Word

theorem toList_length (w : Word) : w.toList.length = 4 := rfl

theorem bytes_cons (w : Word) (ws : List Word) : bytes (w :: ws) = w.toList ++ bytes ws := rfl

/-- Grouping the bytes of words gives the words back. -/
theorem group_bytes (ws : List Word) : group (bytes ws) = ws := by
  induction ws with
  | nil => rfl
  | cons w ws ih => simp [bytes_cons, toList, group, ih]

/-- Grouping loses nothing of a byte string that is a whole number of words. -/
theorem bytes_group (bs : Bytes) (h : bs.length % 4 = 0) : bytes (group bs) = bs := by
  fun_induction group bs with
  | case1 b0 b1 b2 b3 rest ih =>
    have hr : rest.length % 4 = 0 := by simp only [List.length_cons] at h; omega
    simp [bytes_cons, toList, ih hr]
  | case2 bs hn =>
    match bs with
    | [] => rfl
    | [_] => simp at h
    | [_, _] => simp at h
    | [_, _, _] => simp at h
    | b0 :: b1 :: b2 :: b3 :: rest => exact absurd rfl (hn b0 b1 b2 b3 rest)

theorem length_bytes (ws : List Word) : (bytes ws).length = 4 * ws.length := by
  induction ws with
  | nil => rfl
  | cons w ws ih =>
    simp only [bytes_cons, List.length_append, toList_length, ih, List.length_cons]
    omega

end Word

namespace Block

theorem toList_length (b : Block) : b.toList.length = 16 := rfl

theorem bytes_cons (b : Block) (bs : List Block) : bytes (b :: bs) = b.toList ++ bytes bs := rfl

theorem length_bytes (bs : List Block) : (bytes bs).length = 16 * bs.length := by
  induction bs with
  | nil => rfl
  | cons b bs ih =>
    simp only [bytes_cons, List.length_append, toList_length, ih, List.length_cons]
    omega

end Block

end FieldVault

/-
The round keys of AES.

The key words come first; each further word is the one a key length back, added to a function of
the word before it. The function substitutes and rotates at the start of every key length, and in
the longest keys substitutes once more in the middle. A key of `n` words gives `n + 7` round keys.
-/
import FieldVault.Aes.Substitution
import FieldVault.Aes.Mixing

set_option autoImplicit false

namespace FieldVault.Aes

/-- The word of zeros. -/
def zeroWord : Word := ⟨0, 0, 0, 0⟩

/-- `count` more words of a schedule, the first of which has number `i`. `window` holds the last
`keyWords` words, `constant` the round constant that the next key length starts with. -/
def extend (keyWords : Nat) : (count i : Nat) → (constant : UInt8) → (window : List Word) →
    List Word
  | 0, _, _, _ => []
  | count + 1, i, constant, window =>
    let last := window.getLastD zeroWord
    let starts := i % keyWords = 0
    let change :=
      if starts then (last.rotate.map substitute).xor ⟨constant, 0, 0, 0⟩
      else if 6 < keyWords ∧ i % keyWords = 4 then last.map substitute
      else last
    let word := (window.headD zeroWord).xor change
    word :: extend keyWords count (i + 1) (if starts then double constant else constant)
      (window.drop 1 ++ [word])

/-- The round keys of a key of 16, 24 or 32 bytes. -/
def roundKeys (key : Bytes) : List Block :=
  let words := Word.group key
  let n := words.length
  Block.ofWords (words ++ extend n (4 * (n + 7) - n) n 1 words)

end FieldVault.Aes

/-
Trimming, and texts that hold nothing but white space.

Two notions of "blank at the ends" are in use and must not be confused. Configuration values are
blank by the Unicode property White_Space, twenty-five characters. Looked-up values lose only the
characters up to U+0020 at their ends, so a no-break space or an ideographic space stays.
-/

set_option autoImplicit false

namespace FieldVault.Text

/-- The Unicode property White_Space. -/
def isWhiteSpace (c : Char) : Bool :=
  let n := c.toNat
  (9 ≤ n && n ≤ 13) || n == 0x20 || n == 0x85 || n == 0xA0 || n == 0x1680 ||
    (0x2000 ≤ n && n ≤ 0x200A) || n == 0x2028 || n == 0x2029 || n == 0x202F || n == 0x205F ||
    n == 0x3000

/-- A space or a control character below it. -/
def isSpaceOrControl (c : Char) : Bool := c.toNat ≤ 0x20

/-- Drops the characters of a class from both ends. -/
def trimBoth (p : Char → Bool) (cs : List Char) : List Char :=
  ((cs.dropWhile p).reverse.dropWhile p).reverse

/-- The text without white space at its ends. -/
def trim (s : String) : String := String.ofList (trimBoth isWhiteSpace s.toList)

/-- A text of white space only; the empty one included. -/
def isBlank (s : String) : Bool := s.toList.all isWhiteSpace

/-- The text, unless it is blank. -/
def nonBlank (s : Option String) : Option String := s.filter fun t => !isBlank t

end FieldVault.Text

/-
Randomness as data.

Whatever is drawn at random (initialisation vectors, record ids) comes from a supply: an endless
sequence of items, and the number of items drawn so far. A statement about every supply is a
statement about all randomness, and "nothing is drawn" is an equation between two counts.
-/

set_option autoImplicit false

namespace FieldVault

/-- An endless sequence of items, some of them drawn. -/
structure Supply (α : Type) where
  item : Nat → α
  drawn : Nat := 0

namespace Supply

variable {α : Type}

/-- Draws the next item. -/
def next (s : Supply α) : α × Supply α := (s.item s.drawn, { s with drawn := s.drawn + 1 })

end Supply

end FieldVault

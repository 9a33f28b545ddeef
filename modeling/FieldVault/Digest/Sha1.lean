/-
SHA-1.

A state of five numbers is folded over the chunks of the message. Each chunk is stretched to eighty
words, which go through four stages of twenty steps; the result is added to the state.
-/
import FieldVault.Digest.Message

set_option autoImplicit false

namespace FieldVault.Digest.Sha1

/-- The five numbers of the state. -/
structure State where
  a : UInt32
  b : UInt32
  c : UInt32
  d : UInt32
  e : UInt32

/-- The state before the first chunk. -/
def State.initial : State := ⟨0x67452301, 0xEFCDAB89, 0x98BADCFE, 0x10325476, 0xC3D2E1F0⟩

/-- Sums the numbers of two states. -/
def State.add (s t : State) : State := ⟨s.a + t.a, s.b + t.b, s.c + t.c, s.d + t.d, s.e + t.e⟩

/-- The next `count` words of the stretched chunk; `window` holds the sixteen that come first. -/
def stretch : (count : Nat) → (window : List UInt32) → List UInt32
  | 0, _ => []
  | count + 1, window =>
    let at' (i : Nat) : UInt32 := window.getD i 0
    let next := rotateLeft (at' 13 ^^^ at' 8 ^^^ at' 2 ^^^ at' 0) 1
    at' 0 :: stretch count (window.drop 1 ++ [next])

/-- A stage: how three of the numbers are combined, and the constant added. -/
structure Stage where
  combine : UInt32 → UInt32 → UInt32 → UInt32
  constant : UInt32

/-- The choice of the second or third by the bits of the first. -/
def choose (x y z : UInt32) : UInt32 := (x &&& y) ||| (~~~x &&& z)

/-- The parity of three. -/
def parity (x y z : UInt32) : UInt32 := x ^^^ y ^^^ z

/-- The majority of three. -/
def majority (x y z : UInt32) : UInt32 := (x &&& y) ||| (x &&& z) ||| (y &&& z)

/-- The four stages. -/
def stages : List Stage :=
  [⟨choose, 0x5A827999⟩, ⟨parity, 0x6ED9EBA1⟩, ⟨majority, 0x8F1BBCDC⟩, ⟨parity, 0xCA62C1D6⟩]

/-- One step of a stage on a word. -/
def step (stage : Stage) (s : State) (word : UInt32) : State :=
  ⟨rotateLeft s.a 5 + stage.combine s.b s.c s.d + s.e + stage.constant + word,
   s.a, rotateLeft s.b 30, s.c, s.d⟩

/-- The stages on the stretched words, twenty words each. -/
def runStages : List Stage → List UInt32 → State → State
  | [], _, s => s
  | stage :: rest, words, s => runStages rest (words.drop 20) ((words.take 20).foldl (step stage) s)

/-- The state after one more chunk. -/
def absorb (s : State) (chunk : List UInt32) : State :=
  s.add (runStages stages (stretch 80 chunk) s)

/-- The twenty bytes of a state. -/
def State.bytes (s : State) : Bytes := Word.bytes ([s.a, s.b, s.c, s.d, s.e].map Word.ofBigEndian)

end Sha1

/-- The SHA-1 digest of a byte string, twenty bytes. -/
def sha1 (message : Bytes) : Bytes :=
  ((chunks .highFirst message).foldl Sha1.absorb .initial).bytes

end FieldVault.Digest

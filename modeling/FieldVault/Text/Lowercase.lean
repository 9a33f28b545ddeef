/-
Lower case of a text.

Each character has its own lower case, with two exceptions that make this a function of texts. The
dotted capital I becomes two characters, a small i and a combining dot. The capital sigma becomes
a final sigma at the end of a word and a plain one elsewhere: it ends a word if a cased character
stands before it and none after it, case-ignorable characters skipped on both sides.
-/
import FieldVault.Text.CaseTable

set_option autoImplicit false

namespace FieldVault.Text

/-- The property Cased. -/
def isCased (c : Char) : Bool := inRanges casedRanges c.toNat

/-- The property Case_Ignorable. -/
def isCaseIgnorable (c : Char) : Bool := inRanges ignorableRanges c.toNat

/-- The capital sigma. -/
def capitalSigma : Char := 'Σ'

/-- The lower case of one character outside any context. -/
def lowerChar (c : Char) : List Char :=
  if c.toNat = 0x130 then ['i', '\u0307']
  else match lowerRuns.find? (·.covers c.toNat) with
    | some run => [Char.ofNat (Int.toNat (c.toNat + run.offset))]
    | none => [c]

/-- A cased character comes first once the case-ignorable ones are skipped. -/
def startsCased (cs : List Char) : Bool :=
  match cs.dropWhile isCaseIgnorable with
  | [] => false
  | c :: _ => isCased c

/-- Lower case of the rest of a text; `before` holds what precedes it, the nearest first. -/
def lowerFrom (before : List Char) : List Char → List Char
  | [] => []
  | c :: rest =>
    let here :=
      if c = capitalSigma then
        if startsCased before && !startsCased rest then ['ς'] else ['σ']
      else lowerChar c
    here ++ lowerFrom (c :: before) rest

/-- Lower case of a list of characters. -/
def lower (cs : List Char) : List Char := lowerFrom [] cs

end FieldVault.Text

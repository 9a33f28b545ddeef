/-
The lower case of a character, as a fact about the whole case table.

Lower case is stable if no small letter that a run of capitals leads to is covered by any run. To
compare the runs in pairs takes long. But a set of numbers is itself a number, the one with just
these bits, and two sets have nothing in common if their numbers have no bit in common, which is one
operation however many runs there are. A run whose capitals stand side by side with their small
letters covers every other number; its bits are a stripe.

In the same way the letters of ASCII are told apart from what is case-ignorable, and white space
from all that bears on case.
-/
import FieldVault.Proofs.Text.Blank
import FieldVault.Proofs.Text.Utf8
import FieldVault.Text.Lowercase

set_option autoImplicit false

namespace FieldVault.Text

variable {c d : Char} {n : Nat}

/-! ## Sets of numbers as bits -/

/-- The numbers of many sets. -/
def unionBits {α : Type} (f : α → Nat) (l : List α) : Nat :=
  l.foldr (fun a rest => f a ||| rest) 0

/-- The numbers of a range, ends included. -/
def rangeBits (r : Nat × Nat) : Nat := (1 <<< (r.2 + 1 - r.1) - 1) <<< r.1

/-- So many bits, at a distance from each other, from the lowest on. -/
def stripe (step : Nat) : Nat → Nat
  | 0 => 0
  | count + 1 => 1 ||| stripe step count <<< step

theorem testBit_unionBits {α : Type} {f : α → Nat} {l : List α} {a : α} (ha : a ∈ l)
    (h : (f a).testBit n = true) : (unionBits f l).testBit n = true := by
  induction l with
  | nil => cases ha
  | cons b l ih =>
    show (f b ||| unionBits f l).testBit n = true
    rw [Nat.testBit_or, Bool.or_eq_true]
    rcases List.mem_cons.1 ha with rfl | ha
    · exact .inl h
    · exact .inr (ih ha)

theorem testBit_rangeBits {r : Nat × Nat} (hfirst : r.1 ≤ n) (hlast : n ≤ r.2) :
    (rangeBits r).testBit n = true := by
  unfold rangeBits
  rw [Nat.one_shiftLeft, Nat.testBit_shiftLeft, Nat.testBit_two_pow_sub_one, Bool.and_eq_true,
    decide_eq_true_eq, decide_eq_true_eq]
  omega

theorem testBit_stripe {step count i : Nat} (h : i < count) :
    (stripe step count).testBit (step * i) = true := by
  induction count generalizing i with
  | zero => exact absurd h (Nat.not_lt_zero i)
  | succ count ih =>
    rw [stripe, Nat.testBit_or, Bool.or_eq_true]
    cases i with
    | zero => exact .inl (by rw [Nat.mul_zero]; rfl)
    | succ i =>
      have hrest := ih (Nat.lt_of_succ_lt_succ h)
      refine .inr ?_
      rw [Nat.testBit_shiftLeft, Nat.mul_succ, Nat.add_sub_cancel, hrest, Bool.and_true,
        decide_eq_true_eq]
      omega

/-- A number is in no more than one of two sets that have nothing in common. -/
theorem testBit_eq_false {a b : Nat} (h : a &&& b = 0) (ha : a.testBit n = true) :
    b.testBit n = false := by
  have hboth := Nat.testBit_and a b n
  rw [h, Nat.zero_testBit, ha, Bool.true_and] at hboth
  exact hboth.symm

/-- A set that is nothing when shifted by a bound has no number from the bound on. -/
theorem lt_of_testBit {a bound : Nat} (h : a >>> bound = 0) (hn : a.testBit n = true) :
    n < bound := by
  refine Nat.lt_of_not_le fun hle => ?_
  have hshifted := Nat.testBit_shiftRight a (i := bound) (j := n - bound)
  rw [h, Nat.zero_testBit, Nat.add_sub_cancel' hle, hn] at hshifted
  exact Bool.false_ne_true hshifted

theorem inRanges_eq_false {ranges : List (Nat × Nat)} {bits : Nat}
    (h : bits &&& unionBits rangeBits ranges = 0) (hn : bits.testBit n = true) :
    inRanges ranges n = false := by
  have hnot := testBit_eq_false h hn
  rw [← Bool.not_eq_true] at hnot ⊢
  intro hin
  obtain ⟨r, hr, hcovers⟩ := List.any_eq_true.1 hin
  rw [Bool.and_eq_true, decide_eq_true_eq, decide_eq_true_eq] at hcovers
  exact hnot (testBit_unionBits hr (testBit_rangeBits hcovers.1 hcovers.2))

/-! ## Capitals and small letters -/

namespace CaseRun

variable {r : CaseRun}

/-- The small letter of a capital of the run. -/
def small (r : CaseRun) (n : Nat) : Nat := (n + r.offset).toNat

/-- As many numbers as the run has capitals, and spaced like them, from a first one on. -/
def bitsFrom (r : CaseRun) (first : Nat) : Nat :=
  stripe r.step ((r.last - r.first) / r.step + 1) <<< first

theorem covers_iff : r.covers n = true ↔
    (r.first ≤ n ∧ n ≤ r.last) ∧ (n - r.first) % r.step = 0 := by
  simp only [covers, Bool.and_eq_true, decide_eq_true_eq, beq_iff_eq]

theorem testBit_bitsFrom (h : r.covers n = true) (first : Nat) :
    (r.bitsFrom first).testBit (first + (n - r.first)) = true := by
  obtain ⟨⟨hfirst, hlast⟩, hstep⟩ := covers_iff.1 h
  have hindex : r.step * ((n - r.first) / r.step) = n - r.first :=
    Nat.mul_div_cancel' (Nat.dvd_of_mod_eq_zero hstep)
  have hcount : (n - r.first) / r.step < (r.last - r.first) / r.step + 1 :=
    Nat.lt_succ_of_le (Nat.div_le_div_right (by omega))
  unfold bitsFrom
  rw [Nat.testBit_shiftLeft, Nat.add_sub_cancel_left, ← hindex, testBit_stripe hcount,
    Bool.and_true, decide_eq_true_eq]
  omega

end CaseRun

/-- All capitals: those of the table, and the dotted capital I. -/
def capitalRuns : List CaseRun := ⟨0x130, 0x130, 1, 0⟩ :: lowerRuns

/-- The character has a lower case other than itself. -/
def isCapital (c : Char) : Bool := capitalRuns.any (·.covers c.toNat)

/-- The capitals. -/
def capitalBits : Nat := unionBits (fun r => r.bitsFrom r.first) capitalRuns

/-- The small letters of the capitals of the table. -/
def smallBits : Nat := unionBits (fun r => r.bitsFrom (r.small r.first)) lowerRuns

/-- No small letter is a capital, all of them are characters, and they lie above the space. -/
theorem smallBits_apart : smallBits &&& capitalBits = 0 ∧
    smallBits &&& unionBits rangeBits [(0, 0x20), (0xD800, 0xDFFF)] = 0 ∧
    smallBits >>> 0x110000 = 0 ∧
    (lowerRuns.all fun r => Nat.ble (-r.offset).toNat r.first) = true := by
  decide +kernel

theorem testBit_of_isCapital (h : isCapital c = true) : capitalBits.testBit c.toNat = true := by
  obtain ⟨r, hr, hcovers⟩ := List.any_eq_true.1 h
  obtain ⟨⟨hfirst, -⟩, -⟩ := CaseRun.covers_iff.1 hcovers
  have hbit := CaseRun.testBit_bitsFrom hcovers r.first
  rw [Nat.add_sub_cancel' hfirst] at hbit
  exact testBit_unionBits (f := fun r => r.bitsFrom r.first) hr hbit

theorem isCapital_eq_false {bits : Nat} (h : bits &&& capitalBits = 0)
    (hc : bits.testBit c.toNat = true) : isCapital c = false := by
  have hnot := testBit_eq_false h hc
  rw [← Bool.not_eq_true] at hnot ⊢
  exact fun hcapital => hnot (testBit_of_isCapital hcapital)

theorem testBit_small {r : CaseRun} (hr : r ∈ lowerRuns) (h : r.covers n = true) :
    smallBits.testBit (r.small n) = true := by
  obtain ⟨-, -, -, hoffsets⟩ := smallBits_apart
  -- No capital is moved below zero, so the small letters are spaced as the capitals are.
  have hoffset := Nat.le_of_ble_eq_true (List.all_eq_true.1 hoffsets r hr)
  obtain ⟨⟨hfirst, -⟩, -⟩ := CaseRun.covers_iff.1 h
  have hsmall : r.small n = r.small r.first + (n - r.first) := by
    unfold CaseRun.small
    omega
  rw [hsmall]
  exact testBit_unionBits (f := fun r => r.bitsFrom (r.small r.first)) hr
    (CaseRun.testBit_bitsFrom h _)

/-- The small letter of a capital is a character above the space, and no capital. -/
theorem of_small {r : CaseRun} (hr : r ∈ lowerRuns) (h : r.covers n = true) :
    (Char.ofNat (r.small n)).toNat = r.small n ∧ 0x20 < r.small n ∧
      isCapital (Char.ofNat (r.small n)) = false := by
  obtain ⟨hcapital, hranges, hbound, -⟩ := smallBits_apart
  have hbit := testBit_small hr h
  have hmax := lt_of_testBit hbound hbit
  have hapart := inRanges_eq_false hranges hbit
  simp only [inRanges, List.any_cons, List.any_nil, Bool.or_false, Bool.or_eq_false_iff,
    Bool.and_eq_false_iff, decide_eq_false_iff_not] at hapart
  have hnat : (Char.ofNat (r.small n)).toNat = r.small n :=
    Utf8.toNat_ofNat_of_valid (by omega)
  exact ⟨hnat, by omega, isCapital_eq_false hcapital (by rwa [hnat])⟩

/-! ## One character -/

/-- The capital sigma is a capital; its small letters and those of the dotted capital I are not. -/
theorem isCapital_special : isCapital capitalSigma = true ∧
    ∀ d ∈ ['ς', 'σ', 'i', '\u0307'], isCapital d = false ∧ 0x20 < d.toNat := by
  simp only [List.forall_mem_cons, List.not_mem_nil, false_implies, implies_true]
  decide +kernel

theorem ne_capitalSigma (h : isCapital c = false) : c ≠ capitalSigma := by
  rintro rfl
  rw [isCapital_special.1] at h
  exact Bool.noConfusion h

theorem isCapital_eq_false_iff : isCapital c = false ↔
    c.toNat ≠ 0x130 ∧ ∀ r ∈ lowerRuns, r.covers c.toNat = false := by
  have hdotted : CaseRun.covers ⟨0x130, 0x130, 1, 0⟩ c.toNat = true ↔ c.toNat = 0x130 := by
    simp only [CaseRun.covers_iff, Nat.mod_one, and_true]
    omega
  rw [isCapital, capitalRuns, List.any_eq_false, List.forall_mem_cons, hdotted]
  simp only [Bool.not_eq_true, ne_eq]

theorem lowerChar_of_not_capital (h : isCapital c = false) : lowerChar c = [c] := by
  obtain ⟨hdotted, hruns⟩ := isCapital_eq_false_iff.1 h
  have hnone : lowerRuns.find? (·.covers c.toNat) = none := by
    simpa only [List.find?_eq_none, Bool.not_eq_true] using hruns
  rw [lowerChar, if_neg hdotted, hnone]

/-- A character becomes a small i with a dot, the small letter that its run leads to, or itself. -/
theorem lowerChar_cases (c : Char) :
    lowerChar c = ['i', '\u0307'] ∨
    (∃ r ∈ lowerRuns, r.covers c.toNat = true ∧ lowerChar c = [Char.ofNat (r.small c.toNat)]) ∨
    (isCapital c = false ∧ lowerChar c = [c]) := by
  by_cases hdotted : c.toNat = 0x130
  · exact .inl (by rw [lowerChar, if_pos hdotted])
  cases hfind : lowerRuns.find? (·.covers c.toNat) with
  | some r =>
    have hcovers : r.covers c.toNat = true := by simpa using List.find?_some hfind
    refine .inr (.inl ⟨r, List.mem_of_find?_eq_some hfind, hcovers, ?_⟩)
    rw [lowerChar, if_neg hdotted, hfind]
    rfl
  | none =>
    simp only [List.find?_eq_none, Bool.not_eq_true] at hfind
    have hsmall := isCapital_eq_false_iff.2 ⟨hdotted, hfind⟩
    exact .inr (.inr ⟨hsmall, lowerChar_of_not_capital hsmall⟩)

/-- What a character becomes is no capital, and lies above the space if the character does. -/
theorem of_mem_lowerChar (h : d ∈ lowerChar c) :
    isCapital d = false ∧ (0x20 < c.toNat → 0x20 < d.toNat) := by
  rcases lowerChar_cases c with hdotted | ⟨r, hr, hcovers, hrun⟩ | ⟨hsmall, hself⟩
  · rw [hdotted] at h
    have hd := isCapital_special.2 d (List.mem_cons_of_mem _ (List.mem_cons_of_mem _ h))
    exact ⟨hd.1, fun _ => hd.2⟩
  · rw [hrun, List.mem_singleton] at h
    obtain ⟨hnat, habove, hsmall⟩ := of_small hr hcovers
    rw [h, hnat]
    exact ⟨hsmall, fun _ => habove⟩
  · rw [hself, List.mem_singleton] at h
    rw [h]
    exact ⟨hsmall, id⟩

/-! ## Letters of ASCII, and white space -/

/-- The characters do not differ in what the lower case of a text, or its trimming, goes by. -/
structure LowersAlike (c d : Char) : Prop where
  lowerChar : lowerChar c = lowerChar d
  isSigma : c = capitalSigma ↔ d = capitalSigma
  isCased : isCased c = isCased d
  isCaseIgnorable : isCaseIgnorable c = isCaseIgnorable d
  isSpaceOrControl : isSpaceOrControl c = isSpaceOrControl d

/-- The letters of ASCII, of both cases. -/
def letterBits : Nat := unionBits rangeBits [(0x41, 0x5A), (0x61, 0x7A)]

/-- The letters of ASCII are cased and not case-ignorable, their small letters are no capitals, and
their lower case is the one of ASCII. -/
theorem letterBits_apart : letterBits &&& unionBits rangeBits ignorableRanges = 0 ∧
    rangeBits (0x61, 0x7A) &&& capitalBits = 0 ∧
    ∀ n < 26, (Char.ofNat (0x41 + n)).toLower.toNat = 0x61 + n ∧
      lowerChar (Char.ofNat (0x41 + n)) = [(Char.ofNat (0x41 + n)).toLower] ∧
      isCased (Char.ofNat (0x41 + n)) = true ∧
      isCased (Char.ofNat (0x41 + n)).toLower = true := by
  decide +kernel

/-- A letter of ASCII does not differ from its small letter in what it becomes in a text, nor in
what the letters around it become. -/
theorem lowersAlike_toLower (c : Char) : LowersAlike c.toLower c := by
  by_cases hc : 0x41 ≤ c.toNat ∧ c.toNat ≤ 0x5A
  · obtain ⟨hignorable, hcapital, hletters⟩ := letterBits_apart
    have hletter := hletters (c.toNat - 0x41) (by omega)
    rw [show 0x41 + (c.toNat - 0x41) = c.toNat by omega, Char.ofNat_toNat] at hletter
    obtain ⟨hnat, hlower, hcased, hcased'⟩ := hletter
    have hsmall : (rangeBits (0x61, 0x7A)).testBit c.toLower.toNat = true :=
      testBit_rangeBits (by omega) (by omega)
    have hbit : letterBits.testBit c.toNat = true :=
      testBit_unionBits (f := rangeBits) List.mem_cons_self (testBit_rangeBits hc.1 hc.2)
    have hbit' : letterBits.testBit c.toLower.toNat = true :=
      testBit_unionBits (f := rangeBits) (List.mem_cons_of_mem _ List.mem_cons_self) hsmall
    have not_sigma {d : Char} (h : d.toNat ≤ 0x7A) : d ≠ capitalSigma := by
      rintro rfl
      exact absurd h (by decide)
    have not_space {d : Char} (h : 0x41 ≤ d.toNat) : isSpaceOrControl d = false :=
      decide_eq_false (by omega)
    exact {
      lowerChar := (lowerChar_of_not_capital (isCapital_eq_false hcapital hsmall)).trans hlower.symm
      isSigma := iff_of_false (not_sigma (by omega)) (not_sigma (by omega))
      isCased := hcased'.trans hcased.symm
      isCaseIgnorable :=
        (inRanges_eq_false hignorable hbit').trans (inRanges_eq_false hignorable hbit).symm
      isSpaceOrControl := (not_space (by omega)).trans (not_space hc.1).symm }
  · have hself : c.toLower = c := dif_neg fun ⟨hfirst, hlast⟩ =>
      hc ⟨UInt32.le_iff_toNat_le.1 hfirst, UInt32.le_iff_toNat_le.1 hlast⟩
    rw [hself]
    exact ⟨rfl, Iff.rfl, rfl, rfl, rfl⟩

/-- The white space. -/
def spaceBits : Nat := unionBits (fun n => rangeBits (n, n)) whiteSpace

/-- White space is neither a capital, nor cased, nor case-ignorable. -/
theorem spaceBits_apart : spaceBits &&& capitalBits = 0 ∧
    spaceBits &&& unionBits rangeBits casedRanges = 0 ∧
    spaceBits &&& unionBits rangeBits ignorableRanges = 0 := by
  decide +kernel

theorem of_isWhiteSpace (h : isWhiteSpace c = true) :
    isCapital c = false ∧ isCased c = false ∧ isCaseIgnorable c = false := by
  obtain ⟨hcapital, hcased, hignorable⟩ := spaceBits_apart
  have hbit := testBit_unionBits (f := fun n => rangeBits (n, n)) ((isWhiteSpace_iff c).1 h)
    (testBit_rangeBits (Nat.le_refl c.toNat) (Nat.le_refl c.toNat))
  exact ⟨isCapital_eq_false hcapital hbit, inRanges_eq_false hcased hbit,
    inRanges_eq_false hignorable hbit⟩

end FieldVault.Text

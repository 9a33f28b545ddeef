/-
Lower case is stable.

The lower case of a text holds no capital any more, so it is its own lower case.

What a capital sigma becomes depends on the characters around it, but only on whether these are
cased or case-ignorable. A capital letter of ASCII does not differ from its small letter in that,
nor in what it becomes; and white space is neither cased nor case-ignorable, so it ends a word just
as the end of the text does.
-/
import FieldVault.Proofs.Text.CaseTable
import FieldVault.Proofs.Text.Trim

set_option autoImplicit false

namespace FieldVault.Text

variable {before cs rest : List Char} {c d : Char}

/-! ## No capital is left -/

/-- The lower case of a character in its place. -/
def lowerIn (before : List Char) (c : Char) (rest : List Char) : List Char :=
  if c = capitalSigma then
    if startsCased before && !startsCased rest then ['ς'] else ['σ']
  else lowerChar c

theorem lowerFrom_cons (before : List Char) (c : Char) (rest : List Char) :
    lowerFrom before (c :: rest) = lowerIn before c rest ++ lowerFrom (c :: before) rest := rfl

theorem lowerIn_ne_nil (before : List Char) (c : Char) (rest : List Char) :
    lowerIn before c rest ≠ [] := by
  unfold lowerIn
  by_cases hsigma : c = capitalSigma
  · rw [if_pos hsigma]
    split <;> exact List.cons_ne_nil _ _
  · rw [if_neg hsigma]
    rcases lowerChar_cases c with h | ⟨r, -, -, h⟩ | ⟨-, h⟩
    all_goals rw [h]; exact List.cons_ne_nil _ _

theorem of_mem_lowerIn (h : d ∈ lowerIn before c rest) :
    isCapital d = false ∧ (0x20 < c.toNat → 0x20 < d.toNat) := by
  unfold lowerIn at h
  by_cases hsigma : c = capitalSigma
  · rw [if_pos hsigma] at h
    have hsigmas : d ∈ ['ς', 'σ'] := by
      split at h
      · exact List.mem_cons.2 (.inl (List.mem_singleton.1 h))
      · exact List.mem_cons_of_mem _ h
    have hd := isCapital_special.2 d (List.mem_append_left ['i', '\u0307'] hsigmas)
    exact ⟨hd.1, fun _ => hd.2⟩
  · rw [if_neg hsigma] at h
    exact of_mem_lowerChar h

/-- No capital is left in a text in lower case. -/
theorem isCapital_of_mem_lowerFrom (h : d ∈ lowerFrom before cs) : isCapital d = false := by
  induction cs generalizing before with
  | nil => cases h
  | cons c rest ih =>
    rw [lowerFrom_cons, List.mem_append] at h
    rcases h with hhere | hrest
    · exact (of_mem_lowerIn hhere).1
    · exact ih hrest

/-- A text without capitals is its own lower case, whatever precedes it. -/
theorem lowerFrom_of_no_capitals (h : ∀ c ∈ cs, isCapital c = false) (before : List Char) :
    lowerFrom before cs = cs := by
  induction cs generalizing before with
  | nil => rfl
  | cons c rest ih =>
    have hc := h c List.mem_cons_self
    rw [lowerFrom_cons, lowerIn, if_neg (ne_capitalSigma hc), lowerChar_of_not_capital hc,
      ih fun d hd => h d (List.mem_cons_of_mem c hd)]
    rfl

/-- **Lower case is idempotent.** -/
theorem lower_lower (cs : List Char) : lower (lower cs) = lower cs :=
  lowerFrom_of_no_capitals (fun _ => isCapital_of_mem_lowerFrom) []

/-! ## The ends of a text -/

/-- What a character becomes is no space if the character is none. -/
theorem isSpaceOrControl_of_mem_lowerIn (hc : isSpaceOrControl c = false)
    (hd : d ∈ lowerIn before c rest) : isSpaceOrControl d = false := by
  have habove := (of_mem_lowerIn hd).2
  simp only [isSpaceOrControl, decide_eq_false_iff_not, Nat.not_le] at hc ⊢
  exact habove hc

/-- The last character of the lower case comes from the last one of the text, whatever precedes
the text. -/
theorem last_lowerFrom (h : ∀ c ∈ cs.getLast?, isSpaceOrControl c = false) (before : List Char) :
    ∀ d ∈ (lowerFrom before cs).getLast?, isSpaceOrControl d = false := by
  induction cs generalizing before with
  | nil => exact fun d hd => nomatch hd
  | cons c rest ih =>
    rw [lowerFrom_cons]
    cases rest with
    | nil =>
      intro d hd
      rw [lowerFrom, List.append_nil] at hd
      exact isSpaceOrControl_of_mem_lowerIn (h c rfl) (List.mem_of_mem_getLast? hd)
    | cons c' rest =>
      have hne : lowerFrom (c :: before) (c' :: rest) ≠ [] := by
        rw [lowerFrom_cons]
        exact List.append_ne_nil_of_left_ne_nil (lowerIn_ne_nil _ _ _) _
      rw [List.getLast?_append_of_ne_nil _ hne]
      exact ih (by simpa using h) (c :: before)

/-- A text that is not blank at its ends is not in lower case either. -/
theorem bare_lower (h : Bare isSpaceOrControl cs) : Bare isSpaceOrControl (lower cs) := by
  constructor
  · intro d hd
    cases cs with
    | nil => cases hd
    | cons c rest =>
      rw [lower, lowerFrom_cons, List.head?_append_of_ne_nil _ (lowerIn_ne_nil _ _ _)] at hd
      exact isSpaceOrControl_of_mem_lowerIn (h.first c rfl) (List.mem_of_mem_head? hd)
  · exact last_lowerFrom h.last []

/-! ## Letters of ASCII -/

theorem startsCased_map_toLower (cs : List Char) :
    startsCased (cs.map Char.toLower) = startsCased cs := by
  have hignorable : isCaseIgnorable ∘ Char.toLower = isCaseIgnorable :=
    funext fun c => (lowersAlike_toLower c).isCaseIgnorable
  rw [startsCased, startsCased, List.dropWhile_map, hignorable]
  cases cs.dropWhile isCaseIgnorable with
  | nil => rfl
  | cons c rest => exact (lowersAlike_toLower c).isCased

theorem lowerFrom_map_toLower (before cs : List Char) :
    lowerFrom (before.map Char.toLower) (cs.map Char.toLower) = lowerFrom before cs := by
  induction cs generalizing before with
  | nil => rfl
  | cons c rest ih =>
    have hrest := ih (c :: before)
    rw [List.map_cons] at hrest
    rw [List.map_cons, lowerFrom_cons, lowerFrom_cons, hrest]
    simp only [lowerIn, (lowersAlike_toLower c).isSigma, (lowersAlike_toLower c).lowerChar,
      startsCased_map_toLower]

/-- The case of the letters of ASCII makes no difference to the lower case of a text. -/
theorem lower_map_toLower (cs : List Char) : lower (cs.map Char.toLower) = lower cs :=
  lowerFrom_map_toLower [] cs

/-! ## White space -/

/-- White space ends a word as the end of the text does. -/
theorem startsCased_append_space (h : isWhiteSpace c = true) (cs : List Char) :
    startsCased (cs ++ [c]) = startsCased cs := by
  obtain ⟨-, hcased, hignorable⟩ := of_isWhiteSpace h
  rw [startsCased, startsCased, List.dropWhile_append]
  cases cs.dropWhile isCaseIgnorable with
  | nil => simp [hignorable, hcased]
  | cons c' rest => rfl

theorem lowerIn_space (h : isWhiteSpace c = true) (before rest : List Char) :
    lowerIn before c rest = [c] := by
  have hsmall := (of_isWhiteSpace h).1
  rw [lowerIn, if_neg (ne_capitalSigma hsmall), lowerChar_of_not_capital hsmall]

/-- White space after a text stays, and leaves the text alone. -/
theorem lowerFrom_append_space (h : isWhiteSpace d = true) (before cs : List Char) :
    lowerFrom before (cs ++ [d]) = lowerFrom before cs ++ [d] := by
  induction cs generalizing before with
  | nil => rw [List.nil_append, lowerFrom_cons, lowerIn_space h]; rfl
  | cons c rest ih =>
    rw [List.cons_append, lowerFrom_cons, lowerFrom_cons, ih, ← List.append_assoc]
    simp only [lowerIn, startsCased_append_space h]

/-- White space before a text leaves it alone. -/
theorem lowerFrom_after_space (h : isWhiteSpace c = true) (before cs : List Char) :
    lowerFrom (before ++ [c]) cs = lowerFrom before cs := by
  induction cs generalizing before with
  | nil => rfl
  | cons c' rest ih =>
    have hrest := ih (c' :: before)
    rw [List.cons_append] at hrest
    rw [lowerFrom_cons, lowerFrom_cons, hrest]
    simp only [lowerIn, startsCased_append_space h]

/-- **White space stays.** A text between white space is in lower case what it is on its own,
between the same white space. -/
theorem lower_between_spaces (hc : isWhiteSpace c = true) (hd : isWhiteSpace d = true)
    (cs : List Char) : lower (c :: cs ++ [d]) = c :: lower cs ++ [d] := by
  have hcs := lowerFrom_after_space hc [] cs
  rw [List.nil_append] at hcs
  rw [lower, lowerFrom_append_space hd, lowerFrom_cons, lowerIn_space hc, hcs]
  rfl

end FieldVault.Text

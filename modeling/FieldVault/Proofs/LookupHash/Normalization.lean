/-
Which values share a lookup hash.

Values are compared in their normal form, so what the normal form passes over is what makes no
difference to who is found: the case of letters, and spaces and control characters at the ends.
Trimming comes first and lower case after it. They do not get into each other's way: what is left
between the padding starts and ends with characters above the space, lower case keeps it so, and it
leaves no capital behind. So a normal form is its own normal form. Nothing above the space is ever
trimmed, Unicode's other white space included.
-/
import FieldVault.Proofs.LookupHash
import FieldVault.Proofs.Text.Lowercase

set_option autoImplicit false

namespace FieldVault

open Text

/-- The texts differ at most in the case of their ASCII letters. -/
def Text.SameLetters (s t : String) : Prop :=
  s.toList.map Char.toLower = t.toList.map Char.toLower

instance (s t : String) : Decidable (SameLetters s t) := inferInstanceAs (Decidable (_ = _))

/-- The text holds nothing but spaces and control characters below the space, if anything. -/
def Text.Padding (s : String) : Prop := ∀ c ∈ s.toList, c.toNat ≤ 0x20

instance (s : String) : Decidable (Padding s) :=
  List.decidableBAll (fun c : Char => c.toNat ≤ 0x20) s.toList

/-- The text neither starts nor ends with a space or a control character below it. -/
def Text.Unpadded (s : String) : Prop :=
  (∀ c ∈ s.toList.head?, 0x20 < c.toNat) ∧ ∀ c ∈ s.toList.getLast?, 0x20 < c.toNat

namespace LookupHash

variable {s t a b : String} {c d : Char}

theorem isSpaceOrControl_of_padding (h : Padding a) : ∀ c ∈ a.toList, isSpaceOrControl c = true :=
  fun c hc => decide_eq_true (h c hc)

theorem isSpaceOrControl_eq_false_iff : isSpaceOrControl c = false ↔ 0x20 < c.toNat := by
  simp only [isSpaceOrControl, decide_eq_false_iff_not, Nat.not_le]

theorem unpadded_of_bare {cs : List Char} (h : Bare isSpaceOrControl cs) :
    Unpadded (String.ofList cs) := by
  unfold Unpadded
  rw [String.toList_ofList]
  exact ⟨fun c hc => isSpaceOrControl_eq_false_iff.1 (h.first c hc),
    fun c hc => isSpaceOrControl_eq_false_iff.1 (h.last c hc)⟩

theorem normalizeChars_map_toLower (cs : List Char) :
    normalizeChars (cs.map Char.toLower) = normalizeChars cs := by
  have htrim := trimBoth_map (fun c => (lowersAlike_toLower c).isSpaceOrControl) cs
  rw [normalizeChars, htrim, lower_map_toLower, normalizeChars]

/-- Padding and the case of ASCII letters make no difference to the normal form. -/
theorem normalize_padded (h : SameLetters t s) (ha : Padding a) (hb : Padding b) :
    normalize (a ++ t ++ b) = normalize s := by
  have htrim := trimBoth_append (isSpaceOrControl_of_padding ha) (isSpaceOrControl_of_padding hb)
    t.toList
  have hchars : normalizeChars (a ++ t ++ b).toList = normalizeChars s.toList := by
    calc normalizeChars (a ++ t ++ b).toList
        = normalizeChars t.toList := by
          rw [String.toList_append, String.toList_append, normalizeChars, htrim, normalizeChars]
      _ = normalizeChars (t.toList.map Char.toLower) := (normalizeChars_map_toLower _).symm
      _ = normalizeChars (s.toList.map Char.toLower) := by rw [h]
      _ = normalizeChars s.toList := normalizeChars_map_toLower _
  rw [normalize, hchars, normalize]

/-- A normal form is its own normal form. -/
theorem normalize_normalize (s : String) : normalize (normalize s) = normalize s := by
  -- What is in lower case was bare, so it still is, and there is nothing left to trim.
  have hbare := bare_lower (bare_trimBoth isSpaceOrControl s.toList)
  unfold normalize
  rw [String.toList_ofList]
  simp only [normalizeChars]
  rw [trimBoth_of_bare hbare, lower_lower]

/-- What is normalized is what stands between the padding, in lower case. -/
theorem exists_normalize_eq (s : String) : ∃ a core b : String, s = a ++ core ++ b ∧
    Padding a ∧ Padding b ∧ Unpadded core ∧ normalize s = String.ofList (lower core.toList) := by
  obtain ⟨ws, zs, heq, hws, hzs⟩ := exists_padding isSpaceOrControl s.toList
  refine ⟨String.ofList ws, String.ofList (trimBoth isSpaceOrControl s.toList), String.ofList zs,
    ?_, ?_, ?_, ?_, ?_⟩
  · rw [← String.ofList_append, ← String.ofList_append, ← heq, String.ofList_toList]
  · intro c hc
    exact of_decide_eq_true (hws c (by simpa using hc))
  · intro c hc
    exact of_decide_eq_true (hzs c (by simpa using hc))
  · exact unpadded_of_bare (bare_trimBoth _ _)
  · rw [String.toList_ofList, normalize, normalizeChars]

/-- White space above the space stays where it is. -/
theorem normalize_between_spaces (hc : c.toNat ∈ whiteSpace) (hd : d.toNat ∈ whiteSpace)
    (habove : 0x20 < c.toNat) (habove' : 0x20 < d.toNat) (s : String) :
    normalize (String.ofList (c :: s.toList ++ [d])) =
      String.ofList (c :: lower s.toList ++ [d]) := by
  have hbare : Bare isSpaceOrControl (c :: s.toList ++ [d]) := by
    constructor
    · rintro _ ⟨⟩
      exact isSpaceOrControl_eq_false_iff.2 habove
    · intro e he
      rw [List.getLast?_concat, Option.mem_def, Option.some.injEq] at he
      exact isSpaceOrControl_eq_false_iff.2 (he ▸ habove')
  rw [normalize, String.toList_ofList, normalizeChars, trimBoth_of_bare hbare,
    lower_between_spaces ((isWhiteSpace_iff c).2 hc) ((isWhiteSpace_iff d).2 hd)]

/-- **The laws of normal forms.** Padding a value and changing the case of its ASCII letters makes
no difference to its normal form, nor to its hash; and a normal form is its own, so it has the hash
of the value. What is normalized is all that stands between the padding, put in lower case as a
text: nothing above the space is ever trimmed, and white space above it stays as it is. -/
theorem normalization_laws :
    (∀ s t a b : String, SameLetters t s → Padding a → Padding b →
      normalize (a ++ t ++ b) = normalize s ∧ of (a ++ t ++ b) = of s) ∧
    (∀ s : String, normalize (normalize s) = normalize s ∧ of (normalize s) = of s) ∧
    (∀ s : String, ∃ a core b : String, s = a ++ core ++ b ∧ Padding a ∧ Padding b ∧
      Unpadded core ∧ normalize s = String.ofList (lower core.toList)) ∧
    ∀ (s : String) (c d : Char), c.toNat ∈ whiteSpace → d.toNat ∈ whiteSpace →
      0x20 < c.toNat → 0x20 < d.toNat →
      normalize (String.ofList (c :: s.toList ++ [d])) =
        String.ofList (c :: lower s.toList ++ [d]) := by
  refine ⟨fun s t a b hletters ha hb => ?_, fun s => ?_, exists_normalize_eq, ?_⟩
  · have hnormal := normalize_padded hletters ha hb
    exact ⟨hnormal, of_congr hnormal⟩
  · exact ⟨normalize_normalize s, of_congr (normalize_normalize s)⟩
  · intro s c d hc hd habove habove'
    exact normalize_between_spaces hc hd habove habove' s

/-- A word with a final sigma and a dotted capital I, the latter of two characters in lower case.
The no-break space in front is kept, the tab and the line break behind are not. -/
theorem normalization_laws_sigma :
    normalize "\u00A0ΟΔΟΣ İ Foo" = "\u00A0οδος i̇ foo" ∧
    normalize ("\t " ++ "\u00A0ΟΔΟΣ İ fOO" ++ "\n") = "\u00A0οδος i̇ foo" ∧
    of ("\t " ++ "\u00A0ΟΔΟΣ İ fOO" ++ "\n") = of "\u00A0ΟΔΟΣ İ Foo" ∧
    normalize (String.ofList ('\u00A0' :: "ΟΔΟΣ".toList ++ ['\u3000'])) = "\u00A0οδος\u3000" := by
  obtain ⟨hpadded, -, -, hspaces⟩ := normalization_laws
  have hnormal : normalize "\u00A0ΟΔΟΣ İ Foo" = "\u00A0οδος i̇ foo" := by decide +kernel
  have hletters : SameLetters "\u00A0ΟΔΟΣ İ fOO" "\u00A0ΟΔΟΣ İ Foo" := by decide +kernel
  have hfront : Padding "\t " := by decide +kernel
  have hback : Padding "\n" := by decide +kernel
  obtain ⟨hsame, hhash⟩ := hpadded _ _ _ _ hletters hfront hback
  have hkept := hspaces "ΟΔΟΣ" '\u00A0' '\u3000' (by decide) (by decide) (by decide) (by decide)
  refine ⟨hnormal, hsame.trans hnormal, hhash, hkept.trans ?_⟩
  decide +kernel

end LookupHash

end FieldVault

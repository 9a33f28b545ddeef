/-
What trimming takes away.

Trimming by a class of characters takes characters of the class away from both ends, and all of them
that it can reach: a text falls into a blank part, what is left, and another blank part, and what is
left neither starts nor ends with the class. So padding makes no difference to what is left, and a
text that is bare at both ends is left alone.
-/
import FieldVault.Text.Blank
import Mathlib.Data.List.DropRight
import Mathlib.Data.List.TakeWhile

set_option autoImplicit false

namespace FieldVault.Text

variable {p : Char → Bool} {cs ws zs : List Char}

/-- The text neither starts nor ends with a character of the class. -/
structure Bare (p : Char → Bool) (cs : List Char) : Prop where
  first : ∀ c ∈ cs.head?, p c = false
  last : ∀ c ∈ cs.getLast?, p c = false

theorem trimBoth_eq (p : Char → Bool) (cs : List Char) :
    trimBoth p cs = (cs.dropWhile p).rdropWhile p := rfl

/-! ## Padding -/

theorem rdropWhile_append_of_pos (h : ∀ c ∈ zs, p c = true) (cs : List Char) :
    (cs ++ zs).rdropWhile p = cs.rdropWhile p := by
  unfold List.rdropWhile
  rw [List.reverse_append, List.dropWhile_append_of_pos]
  simpa using h

/-- Padding at both ends makes no difference. -/
theorem trimBoth_append (hws : ∀ c ∈ ws, p c = true) (hzs : ∀ c ∈ zs, p c = true)
    (cs : List Char) : trimBoth p (ws ++ cs ++ zs) = trimBoth p cs := by
  rw [List.append_assoc, trimBoth_eq, trimBoth_eq, List.dropWhile_append_of_pos hws,
    List.dropWhile_append]
  by_cases hblank : cs.dropWhile p = []
  · -- Then the text is padding, too, and nothing is left of either.
    rw [hblank, List.dropWhile_eq_nil_iff.2 hzs]
    rfl
  · rw [if_neg (by simpa using hblank), rdropWhile_append_of_pos hzs]

/-! ## What is left -/

/-- What is left of a text is bare. -/
theorem bare_trimBoth (p : Char → Bool) (cs : List Char) : Bare p (trimBoth p cs) := by
  rw [trimBoth_eq]
  constructor
  · intro c hc
    -- What is left at the front is not touched by what is taken away at the back.
    obtain ⟨rest, hrest⟩ := List.rdropWhile_prefix p (cs.dropWhile p)
    have hfront : (cs.dropWhile p).head? = some c := by
      rw [← hrest, List.head?_append, Option.mem_def.1 hc]
      rfl
    have hstop := List.head?_dropWhile_not p cs
    rw [hfront] at hstop
    exact hstop
  · intro c hc
    obtain ⟨hne, rfl⟩ := List.mem_getLast?_eq_getLast hc
    simpa using List.rdropWhile_last_not p _ hne

/-- A bare text is left as it is. -/
theorem trimBoth_of_bare (h : Bare p cs) : trimBoth p cs = cs := by
  have hfirst : cs.dropWhile p = cs := by
    rw [List.dropWhile_eq_self_iff]
    intro hl
    simpa using h.first _ (List.head?_eq_getElem? (l := cs) ▸ List.getElem?_eq_getElem hl)
  rw [trimBoth_eq, hfirst, List.rdropWhile_eq_self_iff]
  intro hne
  simpa using h.last _ (List.getLast?_eq_some_getLast hne)

/-- A text is what is left of it, between characters of the class. -/
theorem exists_padding (p : Char → Bool) (cs : List Char) :
    ∃ ws zs, cs = ws ++ trimBoth p cs ++ zs ∧ (∀ c ∈ ws, p c = true) ∧ ∀ c ∈ zs, p c = true := by
  refine ⟨cs.takeWhile p, (cs.dropWhile p).rtakeWhile p, ?_, fun c => List.mem_takeWhile_imp,
    fun c => List.mem_rtakeWhile_imp⟩
  rw [trimBoth_eq, List.append_assoc, List.rdropWhile_append_rtakeWhile,
    List.takeWhile_append_dropWhile]

/-- Trimming commutes with what keeps the class. -/
theorem trimBoth_map {f : Char → Char} (h : ∀ c, p (f c) = p c) (cs : List Char) :
    trimBoth p (cs.map f) = (trimBoth p cs).map f := by
  have hf : p ∘ f = p := funext h
  unfold trimBoth
  rw [List.dropWhile_map, hf, ← List.map_reverse, List.dropWhile_map, hf, List.map_reverse]

end FieldVault.Text

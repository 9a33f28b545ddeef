/-
Writing settings down.

Any texts and flags can be written down as a document, one to a line: each under its bare name, a
text between double quotes with the characters escaped that cannot stand there as they are. Reading
the document gives back what was written, in order. So there is no text that a settings file could
not hold, be it blank, a line break, or a quote.
-/
import FieldVault.Proofs.Bytes.Hex
import FieldVault.Proofs.Text.Utf8
import FieldVault.Settings.Document

set_option autoImplicit false

namespace FieldVault.Settings.Document

variable {c d : Char} {cs rest : List Char}

/-! ## Writing -/

/-- The character can stand in a double-quoted string as it is. -/
def standsAsIs (c : Char) : Bool := isPlain c && c ≠ '"' && c ≠ '\\'

/-- A character in a double-quoted string. -/
def escape (c : Char) : List Char :=
  if standsAsIs c then [c]
  else ['\\', 'u', '0', '0', Hex.digit (c.toNat / 16), Hex.digit (c.toNat % 16)]

/-- A value as it is written. -/
def printValue : Value → List Char
  | .text s => '"' :: s.toList.flatMap escape ++ ['"']
  | .flag true => "true".toList
  | .flag false => "false".toList

/-- A setting on a line of its own. -/
def printLine (setting : String × Value) : List Char :=
  setting.1.toList ++ ' ' :: '=' :: ' ' :: printValue setting.2 ++ ['\n']

/-- The settings, line by line. -/
def print (settings : List (String × Value)) : String :=
  String.ofList (settings.flatMap printLine)

/-- The name can be written without quotes. -/
def IsBare (name : String) : Prop := name ≠ "" ∧ ∀ c ∈ name.toList, isKeyChar c = true

instance (name : String) : Decidable (IsBare name) :=
  -- Decided by the characters of the name; other instances run through all characters there are.
  haveI := List.decidableBAll (fun c => isKeyChar c = true) name.toList
  inferInstanceAs (Decidable (name ≠ "" ∧ ∀ c ∈ name.toList, isKeyChar c = true))

/-! ## Reading strings -/

theorem basic?_plain (h : standsAsIs c = true) (rest : List Char) :
    basic? (c :: rest) = (basic? rest).map (push c) := by
  simp only [standsAsIs, Bool.and_eq_true, decide_eq_true_eq] at h
  obtain ⟨⟨hplain, hquote⟩, hslash⟩ := h
  rw [basic?, if_pos ⟨hslash, hplain⟩]
  · exact hquote
  all_goals intros; exact absurd ‹_› hslash

theorem basic?_unit {a b e f : Char} (h : scalar? [a, b, e, f] = some c) (rest : List Char) :
    basic? ('\\' :: 'u' :: a :: b :: e :: f :: rest) = (basic? rest).map (push c) := by
  rw [basic?, h]
  cases basic? rest <;> rfl

/-- Only characters of ASCII need an escape. -/
theorem standsAsIs_of_le (h : 0x80 ≤ c.toNat) : standsAsIs c = true := by
  have hplain : isPlain c = true := by
    simp only [isPlain, Bool.or_eq_true, Bool.and_eq_true, decide_eq_true_eq]
    omega
  have hquote : c ≠ '"' := by
    rintro rfl
    exact absurd h (by decide)
  have hslash : c ≠ '\\' := by
    rintro rfl
    exact absurd h (by decide)
  simp only [standsAsIs, hplain, hquote, hslash, ne_eq, not_false_iff, decide_true, Bool.and_self]

/-- What a character is written as is read as the character. -/
theorem basic?_escape (c : Char) (rest : List Char) :
    basic? (escape c ++ rest) = (basic? rest).map (push c) := by
  unfold escape
  by_cases hstands : standsAsIs c = true
  · rw [if_pos hstands]
    exact basic?_plain hstands rest
  · rw [if_neg hstands]
    have hsmall : ¬0x80 ≤ c.toNat := fun h => hstands (standsAsIs_of_le h)
    have hvalid : c.toNat.isValidChar := c.valid
    refine basic?_unit ?_ rest
    rw [scalar?, Hex.number?_digits (by omega)]
    show (if c.toNat.isValidChar then some (Char.ofNat c.toNat) else none) = some c
    rw [if_pos hvalid, Char.ofNat_toNat]

theorem basic?_escapes (cs rest : List Char) :
    basic? (cs.flatMap escape ++ '"' :: rest) = some (cs, rest) := by
  induction cs with
  | nil => rfl
  | cons c cs ih =>
    rw [List.flatMap_cons, List.append_assoc, basic?_escape, ih]
    rfl

/-- The first character of what is written for another is no quote. -/
theorem exists_escape_eq_cons (c : Char) : ∃ d ds, escape c = d :: ds ∧ d ≠ '"' := by
  unfold escape
  by_cases hstands : standsAsIs c = true
  · rw [if_pos hstands]
    simp only [standsAsIs, Bool.and_eq_true, decide_eq_true_eq] at hstands
    exact ⟨c, [], rfl, hstands.1.2⟩
  · rw [if_neg hstands]
    exact ⟨'\\', _, rfl, by decide⟩

/-! ## Reading settings -/

theorem value?_quoted (h : d ≠ '"') (rest : List Char) :
    value? ('"' :: d :: rest) =
      (basic? (d :: rest)).map fun (s, rest) => (.text (String.ofList s), rest) := by
  rw [value?]
  intro rest' heq
  exact h (List.cons.inj heq).1

theorem value?_print (v : Value) (rest : List Char) :
    value? (printValue v ++ '\n' :: rest) = some (v, '\n' :: rest) := by
  match v with
  | .flag true => rfl
  | .flag false => rfl
  | .text s =>
    have hread := basic?_escapes s.toList ('\n' :: rest)
    rw [printValue, List.cons_append, List.cons_append, List.append_assoc, List.singleton_append]
    -- The quotes of an empty text are two; they must not be taken for the first two of three.
    cases hs : s.toList with
    | nil =>
      have hempty : s = "" := String.toList_inj.1 hs
      rw [hempty]
      rfl
    | cons c cs =>
      obtain ⟨d, ds, hescape, hd⟩ := exists_escape_eq_cons c
      rw [hs] at hread
      rw [List.flatMap_cons, hescape, List.cons_append, List.cons_append] at hread ⊢
      rw [value?_quoted hd, hread, ← hs]
      simp only [Option.map_some, String.ofList_toList]

theorem restOfLine?_lineBreak (rest : List Char) : restOfLine? ('\n' :: rest) = some rest := rfl

theorem skipSpace_cons (h : isSpace c = false) (cs : List Char) : skipSpace (c :: cs) = c :: cs :=
  List.dropWhile_cons_of_neg (by rw [h]; exact Bool.false_ne_true)

theorem of_isKeyChar (h : isKeyChar c = true) :
    c ≠ '"' ∧ c ≠ '\'' ∧ c ≠ '#' ∧ c ≠ '\n' ∧ c ≠ '\r' ∧ c ≠ '\uFEFF' ∧ isSpace c = false := by
  have hne {d : Char} (hd : isKeyChar d = false) : c ≠ d := by
    rintro rfl
    exact absurd hd (by rw [h]; decide)
  refine ⟨hne rfl, hne rfl, hne rfl, hne rfl, hne rfl, hne (by decide +kernel), ?_⟩
  simp only [isSpace, hne (show isKeyChar ' ' = false from rfl),
    hne (show isKeyChar '\t' = false from rfl), decide_false, Bool.or_self]

theorem IsBare.exists_eq_cons {name : String} (h : IsBare name) :
    ∃ c cs, name.toList = c :: cs ∧ isKeyChar c = true := by
  obtain ⟨hne, hkey⟩ := h
  cases hname : name.toList with
  | nil => exact absurd (String.toList_inj.1 hname) hne
  | cons c cs => exact ⟨c, cs, rfl, hkey c (by rw [hname]; exact List.mem_cons_self)⟩

theorem key?_bare {name : String} (h : IsBare name) (hd : isKeyChar d = false)
    (rest : List Char) : key? (name.toList ++ d :: rest) = some (name.toList, d :: rest) := by
  have htake : (name.toList ++ d :: rest).takeWhile isKeyChar = name.toList := by
    rw [List.takeWhile_append_of_pos h.2, List.takeWhile_cons_of_neg (by rw [hd]; decide),
      List.append_nil]
  have hdrop : (name.toList ++ d :: rest).dropWhile isKeyChar = d :: rest := by
    rw [List.dropWhile_append_of_pos h.2, List.dropWhile_cons_of_neg (by rw [hd]; decide)]
  obtain ⟨c, cs, hname, hc⟩ := h.exists_eq_cons
  obtain ⟨hquote, hquote', -⟩ := of_isKeyChar hc
  rw [hname, List.cons_append] at htake hdrop ⊢
  rw [key?, htake]
  · rw [hdrop]
  · intro rest' heq
    exact hquote (List.cons.inj heq).1
  · intro rest' heq
    exact hquote' (List.cons.inj heq).1

/-- A line starts with a character of its name. -/
theorem exists_printLine_eq_cons {setting : String × Value} (h : IsBare setting.1) :
    ∃ c cs, printLine setting = c :: cs ∧ isKeyChar c = true := by
  obtain ⟨c, cs, hname, hc⟩ := h.exists_eq_cons
  exact ⟨c, cs ++ ' ' :: '=' :: ' ' :: printValue setting.2 ++ ['\n'],
    by rw [printLine, hname, List.cons_append, List.cons_append], hc⟩

theorem skipSpace_print (v : Value) (rest : List Char) :
    skipSpace (' ' :: printValue v ++ rest) = printValue v ++ rest := by
  match v with
  | .flag true => rfl
  | .flag false => rfl
  | .text s => rfl

theorem setting?_print {setting : String × Value} (h : IsBare setting.1) (rest : List Char) :
    setting? (printLine setting ++ rest) = some (setting, rest) := by
  obtain ⟨name, v⟩ := setting
  have hline : printLine (name, v) ++ rest =
      name.toList ++ ' ' :: ('=' :: ' ' :: printValue v ++ '\n' :: rest) := by
    simp [printLine]
  have hequals : skipSpace (' ' :: ('=' :: ' ' :: printValue v ++ '\n' :: rest)) =
      '=' :: (' ' :: printValue v ++ '\n' :: rest) := rfl
  rw [hline, setting?, key?_bare h rfl]
  simp only [bind, Option.bind, hequals, skipSpace_print, value?_print, restOfLine?_lineBreak, pure,
    String.ofList_toList]

/-! ## Reading documents -/

/-- A line that starts with a character of a name is read as a setting. -/
theorem lines?_of_isKeyChar (h : isKeyChar c = true) (steps : Nat) (cs : List Char) :
    lines? (steps + 1) (c :: cs) =
      (setting? (c :: cs)).bind fun read => (lines? steps read.2).map (read.1 :: ·) := by
  obtain ⟨-, -, hcomment, hbreak, hbreak', -, hspace⟩ := of_isKeyChar h
  have hline : lineBreak? (c :: cs) = none := by
    rw [lineBreak?]
    · intro rest heq
      exact hbreak (List.cons.inj heq).1
    · intro rest heq
      exact hbreak' (List.cons.inj heq).1
  rw [lines?, skipSpace_cons hspace]
  split
  · rename_i heq
    cases heq
  · rename_i heq
    exact absurd (List.cons.inj heq).1 hcomment
  · rw [hline]
    obtain _ | ⟨setting, rest⟩ := setting? (c :: cs)
    · rfl
    · rw [Option.bind_some]
      show (lines? steps rest).bind (some <| setting :: ·) = _
      cases lines? steps rest <;> rfl

theorem lines?_print {settings : List (String × Value)} (h : ∀ e ∈ settings, IsBare e.1)
    {steps : Nat} (hsteps : settings.length < steps) :
    lines? steps (settings.flatMap printLine) = some settings := by
  induction settings generalizing steps with
  | nil =>
    obtain ⟨n, rfl⟩ := Nat.exists_eq_add_of_lt hsteps
    rfl
  | cons e settings ih =>
    obtain ⟨n, rfl⟩ := Nat.exists_eq_add_of_lt hsteps
    have hbare := h e List.mem_cons_self
    have hrest : lines? (settings.length + 1 + n) (settings.flatMap printLine) = some settings :=
      ih (fun e' he' => h e' (List.mem_cons_of_mem e he')) (by omega)
    have hread := setting?_print hbare (settings.flatMap printLine)
    obtain ⟨c, cs, hline, hc⟩ := exists_printLine_eq_cons hbare
    rw [List.flatMap_cons, hline, List.cons_append, List.length_cons, lines?_of_isKeyChar hc,
      ← List.cons_append, ← hline, hread, Option.bind_some, hrest]
    rfl

theorem length_le_length_lines {settings : List (String × Value)}
    (h : ∀ e ∈ settings, IsBare e.1) :
    settings.length ≤ (settings.flatMap printLine).length := by
  induction settings with
  | nil => exact Nat.le_refl 0
  | cons e settings ih =>
    obtain ⟨c, cs, hline, -⟩ := exists_printLine_eq_cons (h e List.mem_cons_self)
    have hrest := ih fun e' he' => h e' (List.mem_cons_of_mem e he')
    rw [List.flatMap_cons, hline, List.length_append, List.length_cons, List.length_cons]
    omega

/-- **What is written down is read back.** -/
theorem parse?_print {settings : List (String × Value)} (h : ∀ e ∈ settings, IsBare e.1) :
    parse? (print settings) = some settings := by
  have hmark : dropMark (settings.flatMap printLine) = settings.flatMap printLine := by
    cases settings with
    | nil => rfl
    | cons e settings =>
      obtain ⟨c, cs, hline, hc⟩ := exists_printLine_eq_cons (h e List.mem_cons_self)
      obtain ⟨-, -, -, -, -, hmark, -⟩ := of_isKeyChar hc
      rw [List.flatMap_cons, hline, List.cons_append, dropMark]
      intro rest heq
      exact hmark (List.cons.inj heq).1
  rw [parse?, print, String.toList_ofList, hmark]
  exact lines?_print h (Nat.lt_succ_of_le (length_le_length_lines h))

end FieldVault.Settings.Document

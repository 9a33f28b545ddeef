/-
Spellings of JSON values.

A value has many spellings, since space may stand between tokens wherever one likes. Reading any of
them gives the value back, whatever follows it; this needs nothing of how a text was come by, and
the number of steps that the reader takes is bounded by the length of the spelling. Both ways of
printing a value give a spelling of it, the one without any space and the one on lines. So what is
printed is read back, and a third way of printing would only have to be shown to spell.

Numbers are left out: they are kept as they were written, so a value made by hand can hold one that
no text has.
-/
import FieldVault.Json.Printer
import FieldVault.Json.Reader
import FieldVault.Proofs.Bytes.Hex

set_option autoImplicit false

namespace FieldVault.Json

variable {cs ds ws : List Char}

/-! ## Space -/

/-- Characters that may stand between tokens. -/
def Gap (ws : List Char) : Prop := ∀ c ∈ ws, isSpace c = true

theorem gap_nil : Gap [] := fun _ hc => nomatch hc

theorem gap_singleton : Gap [' '] := by
  intro c hc
  cases List.mem_singleton.1 hc
  rfl

theorem gap_newLine (depth : Nat) : Gap (newLine depth) := by
  intro c hc
  rcases List.mem_cons.1 hc with rfl | hc
  · rfl
  · cases (List.mem_replicate.1 hc).2
    rfl

theorem skipSpace_append (h : Gap ws) (cs : List Char) : skipSpace (ws ++ cs) = skipSpace cs :=
  List.dropWhile_append_of_pos h

theorem skipSpace_cons {c : Char} (h : isSpace c = false) (cs : List Char) :
    skipSpace (c :: cs) = c :: cs :=
  List.dropWhile_cons_of_neg (by rw [h]; exact Bool.false_ne_true)

theorem skipSpace_skipSpace (cs : List Char) : skipSpace (skipSpace cs) = skipSpace cs := by
  induction cs with
  | nil => rfl
  | cons c cs ih =>
    cases hc : isSpace c with
    | true =>
      have hdrop : skipSpace (c :: cs) = skipSpace cs := List.dropWhile_cons_of_pos hc
      rw [hdrop, ih]
    | false => rw [skipSpace_cons hc, skipSpace_cons hc]

/-! ## Strings -/

/-- A piece read before others. -/
def prepend (p : Piece) (read : List Piece × List Char) : List Piece × List Char :=
  (p :: read.1, read.2)

theorem readPieces_short {e c : Char} (hu : e ≠ 'u') (he : unescape? e = some c)
    (rest : List Char) :
    readPieces ('\\' :: e :: rest) = (readPieces rest).map (prepend (.char c)) := by
  rw [readPieces, he]
  · cases readPieces rest <;> rfl
  · intro a b c' d rest' heq
    exact fun _ => hu heq

theorem readPieces_unit {a b c d : Char} {n : Nat} (h : Hex.number? [a, b, c, d] = some n)
    (rest : List Char) :
    readPieces ('\\' :: 'u' :: a :: b :: c :: d :: rest) =
      (readPieces rest).map (prepend (.ofUnit n)) := by
  rw [readPieces, h]
  cases readPieces rest <;> rfl

theorem readPieces_plain {c : Char} (hquote : c ≠ '"') (hslash : c ≠ '\\') (hc : 0x20 ≤ c.toNat)
    (rest : List Char) : readPieces (c :: rest) = (readPieces rest).map (prepend (.char c)) := by
  rw [readPieces, if_neg (by rintro (h | h); exact hslash h; omega)]
  · cases readPieces rest <;> rfl
  · exact hquote
  · intro a b c' d rest' heq
    exact absurd heq hslash
  · intro e rest' heq
    exact absurd heq hslash

theorem readPieces_control {c e : Char} {n : Nat} (hc : c.toNat = n) (hu : e ≠ 'u')
    (he : unescape? e = some (Char.ofNat n)) (rest : List Char) :
    readPieces ('\\' :: e :: rest) = (readPieces rest).map (prepend (.char c)) := by
  rw [← hc, Char.ofNat_toNat] at he
  exact readPieces_short hu he rest

/-- What a character is written as is read as the character. -/
theorem readPieces_escape (c : Char) (rest : List Char) :
    readPieces (escape c ++ rest) = (readPieces rest).map (prepend (.char c)) := by
  unfold escape
  split
  · subst_vars
    exact readPieces_short (by decide) (by decide) rest
  split
  · subst_vars
    exact readPieces_short (by decide) (by decide) rest
  -- the control characters that have an escape of their own
  split
  · exact readPieces_control ‹_› (by decide) (by decide) rest
  split
  · exact readPieces_control ‹_› (by decide) (by decide) rest
  split
  · exact readPieces_control ‹_› (by decide) (by decide) rest
  split
  · exact readPieces_control ‹_› (by decide) (by decide) rest
  split
  · exact readPieces_control ‹_› (by decide) (by decide) rest
  split
  · rename_i hcontrol
    have hunit : Piece.ofUnit c.toNat = .char c := by
      rw [Piece.ofUnit, if_neg (by omega), Char.ofNat_toNat]
    rw [← hunit]
    exact readPieces_unit (Hex.number?_digits (by omega)) rest
  · exact readPieces_plain ‹_› ‹_› (by omega) rest

theorem readPieces_escapes (cs rest : List Char) :
    readPieces (cs.flatMap escape ++ '"' :: rest) = some (cs.map .char, rest) := by
  induction cs with
  | nil => rfl
  | cons c cs ih =>
    rw [List.flatMap_cons, List.append_assoc, readPieces_escape, ih]
    rfl

theorem joinPieces_chars (cs : List Char) : joinPieces (cs.map .char) = some cs := by
  induction cs with
  | nil => rfl
  | cons c cs ih =>
    rw [List.map_cons, joinPieces, ih]
    rfl

/-- **A string is read back**, with a text or without one. -/
theorem readString_quoteText (s : Option String) :
    ∃ body, quoteText s = '"' :: body ∧ ∀ rest, readString (body ++ rest) = some (s, rest) := by
  cases s with
  | none => exact ⟨"\\ud800\"".toList, rfl, fun rest => rfl⟩
  | some s =>
    refine ⟨s.toList.flatMap escape ++ ['"'], rfl, fun rest => ?_⟩
    rw [List.append_assoc, List.singleton_append, readString, readPieces_escapes, Option.map_some]
    simp only [joinPieces_chars, Option.map_some, String.ofList_toList]

/-! ## The grammar -/

mutual

/-- The characters spell the value. -/
inductive Spells : Json → List Char → Prop
  | null : Spells .null "null".toList
  | yes : Spells (.bool true) "true".toList
  | no : Spells (.bool false) "false".toList
  | string (s : Option String) : Spells (.string s) (quoteText s)
  | emptyArray {ws : List Char} (hw : Gap ws) : Spells (.array []) ('[' :: (ws ++ [']']))
  | array {items : List Json} {cs : List Char} (h : SpellsItems items cs) :
    Spells (.array items) ('[' :: cs)
  | emptyObject {ws : List Char} (hw : Gap ws) : Spells (.object []) ('{' :: (ws ++ ['}']))
  | object {members : List (Option String × Json)} {cs : List Char}
      (h : SpellsMembers members cs) :
    Spells (.object members) ('{' :: cs)

/-- The characters spell the items of an array, at least one, and its closing bracket. -/
inductive SpellsItems : List Json → List Char → Prop
  | last {j : Json} {ws cs xs : List Char} (hw : Gap ws) (h : Spells j cs) (hx : Gap xs) :
    SpellsItems [j] (ws ++ (cs ++ (xs ++ [']'])))
  | cons {j : Json} {items : List Json} {ws cs xs ds : List Char} (hw : Gap ws) (h : Spells j cs)
      (hx : Gap xs) (hrest : SpellsItems items ds) :
    SpellsItems (j :: items) (ws ++ (cs ++ (xs ++ ',' :: ds)))

/-- The characters spell the members of an object, at least one, and its closing brace. -/
inductive SpellsMembers : List (Option String × Json) → List Char → Prop
  | last (name : Option String) {j : Json} {ws ns vs cs xs : List Char} (hw : Gap ws)
      (hn : Gap ns) (hv : Gap vs) (h : Spells j cs) (hx : Gap xs) :
    SpellsMembers [(name, j)]
      (ws ++ (quoteText name ++ (ns ++ ':' :: (vs ++ (cs ++ (xs ++ ['}']))))))
  | cons (name : Option String) {j : Json} {members : List (Option String × Json)}
      {ws ns vs cs xs ds : List Char} (hw : Gap ws) (hn : Gap ns) (hv : Gap vs) (h : Spells j cs)
      (hx : Gap xs) (hrest : SpellsMembers members ds) :
    SpellsMembers ((name, j) :: members)
      (ws ++ (quoteText name ++ (ns ++ ':' :: (vs ++ (cs ++ (xs ++ ',' :: ds))))))

end

/-- A spelling starts with a character that is neither space nor a closing bracket. -/
theorem Spells.head {j : Json} (h : Spells j cs) :
    ∃ c rest, cs = c :: rest ∧ isSpace c = false ∧ c ≠ ']' := by
  cases h with
  | null | yes | no => exact ⟨_, _, rfl, rfl, by decide⟩
  | string s =>
    obtain ⟨body, hbody, -⟩ := readString_quoteText s
    exact ⟨_, _, hbody, rfl, by decide⟩
  | emptyArray | array | emptyObject | object => exact ⟨_, _, rfl, rfl, by decide⟩

/-! ## Reading a spelling -/

theorem readValue_skipSpace (steps : Nat) (cs : List Char) :
    readValue steps (skipSpace cs) = readValue steps cs := by
  cases steps with
  | zero => rfl
  | succ steps => rw [readValue, readValue, skipSpace_skipSpace]

/-- Space in front of a value is passed over. -/
theorem readValue_append (steps : Nat) (h : Gap ws) (cs : List Char) :
    readValue steps (ws ++ cs) = readValue steps cs := by
  rw [← readValue_skipSpace, skipSpace_append h, readValue_skipSpace]

theorem readItems_skipSpace (steps : Nat) (cs : List Char) :
    readItems steps (skipSpace cs) = readItems steps cs := by
  cases steps with
  | zero => rfl
  | succ steps => rw [readItems, readItems, readValue_skipSpace]

theorem readMembers_skipSpace (steps : Nat) (cs : List Char) :
    readMembers steps (skipSpace cs) = readMembers steps cs := by
  cases steps with
  | zero => rfl
  | succ steps => rw [readMembers, readMembers, skipSpace_skipSpace]

/-! What opens a value decides how it goes on. -/

theorem readValue_string (steps : Nat) (cs : List Char) :
    readValue (steps + 1) ('"' :: cs) = (readString cs).map fun p => (.string p.1, p.2) := rfl

theorem readValue_emptyArray (steps : Nat) {cs rest : List Char}
    (h : skipSpace cs = ']' :: rest) :
    readValue (steps + 1) ('[' :: cs) = some (.array [], rest) := by
  have hopen : skipSpace ('[' :: cs) = '[' :: cs := rfl
  simp only [readValue, hopen, h]

theorem readValue_array (steps : Nat) (h : ∀ rest, skipSpace cs ≠ ']' :: rest) :
    readValue (steps + 1) ('[' :: cs) =
      (readItems steps cs).map fun p => (.array p.1, p.2) := by
  have hopen : skipSpace ('[' :: cs) = '[' :: cs := rfl
  rw [← readItems_skipSpace]
  simp only [readValue, hopen]

theorem readValue_emptyObject (steps : Nat) {cs rest : List Char}
    (h : skipSpace cs = '}' :: rest) :
    readValue (steps + 1) ('{' :: cs) = some (.object [], rest) := by
  have hopen : skipSpace ('{' :: cs) = '{' :: cs := rfl
  simp only [readValue, hopen, h]

theorem readValue_object (steps : Nat) (h : ∀ rest, skipSpace cs ≠ '}' :: rest) :
    readValue (steps + 1) ('{' :: cs) =
      (readMembers steps cs).map fun p => (.object p.1, p.2) := by
  have hopen : skipSpace ('{' :: cs) = '{' :: cs := rfl
  rw [← readMembers_skipSpace]
  simp only [readValue, hopen]

/-! What follows an item or a member decides whether there are more. -/

section Lists

variable {steps : Nat} {j : Json} {after more rest : List Char}

theorem readItems_last (hread : readValue steps cs = some (j, after))
    (hclose : skipSpace after = ']' :: rest) : readItems (steps + 1) cs = some ([j], rest) := by
  simp only [readItems, hread, Option.bind_eq_bind, Option.bind_some, hclose]
  rfl

theorem readItems_cons {items : List Json} (hread : readValue steps cs = some (j, after))
    (hcomma : skipSpace after = ',' :: more)
    (hmore : readItems steps more = some (items, rest)) :
    readItems (steps + 1) cs = some (j :: items, rest) := by
  simp only [readItems, hread, Option.bind_eq_bind, Option.bind_some, hcomma, hmore]
  rfl

variable {name : Option String} {label value : List Char}

theorem readMembers_last (hname : skipSpace cs = quoteText name ++ label)
    (hcolon : skipSpace label = ':' :: value) (hread : readValue steps value = some (j, after))
    (hclose : skipSpace after = '}' :: rest) :
    readMembers (steps + 1) cs = some ([(name, j)], rest) := by
  obtain ⟨body, hbody, hstring⟩ := readString_quoteText name
  rw [hbody, List.cons_append] at hname
  simp only [readMembers, hname, hstring, hcolon, hread, Option.bind_eq_bind, Option.bind_some,
    hclose]
  rfl

theorem readMembers_cons {members : List (Option String × Json)}
    (hname : skipSpace cs = quoteText name ++ label)
    (hcolon : skipSpace label = ':' :: value) (hread : readValue steps value = some (j, after))
    (hcomma : skipSpace after = ',' :: more)
    (hmore : readMembers steps more = some (members, rest)) :
    readMembers (steps + 1) cs = some ((name, j) :: members, rest) := by
  obtain ⟨body, hbody, hstring⟩ := readString_quoteText name
  rw [hbody, List.cons_append] at hname
  simp only [readMembers, hname, hstring, hcolon, hread, Option.bind_eq_bind, Option.bind_some,
    hcomma, hmore]
  rfl

end Lists

/-- A mark is found behind the space in front of it. -/
theorem skipSpace_mark (h : Gap ws) {c : Char} (hc : isSpace c = false) (cs : List Char) :
    skipSpace (ws ++ c :: cs) = c :: cs := by
  rw [skipSpace_append h, skipSpace_cons hc]

theorem skipSpace_name (h : Gap ws) (name : Option String) (cs : List Char) :
    skipSpace (ws ++ (quoteText name ++ cs)) = quoteText name ++ cs := by
  obtain ⟨body, hbody, -⟩ := readString_quoteText name
  rw [hbody, List.cons_append, skipSpace_mark h rfl]

/-- The items of an array do not start with its closing bracket. -/
theorem SpellsItems.open {items : List Json} (h : SpellsItems items cs) (rest tail : List Char) :
    skipSpace (cs ++ rest) ≠ ']' :: tail := by
  intro heq
  obtain ⟨ws, c, cs', rfl, hw, hspace, hc⟩ :
      ∃ ws c cs', cs = ws ++ c :: cs' ∧ Gap ws ∧ isSpace c = false ∧ c ≠ ']' := by
    cases h with
    | last hw hj | cons hw hj =>
      obtain ⟨c, cs', rfl, hspace, hc⟩ := hj.head
      exact ⟨_, c, _, rfl, hw, hspace, hc⟩
  rw [List.append_assoc, List.cons_append, skipSpace_mark hw hspace] at heq
  exact hc (List.cons.inj heq).1

/-- The members of an object do not start with its closing brace. -/
theorem SpellsMembers.open {members : List (Option String × Json)} (h : SpellsMembers members cs)
    (rest tail : List Char) : skipSpace (cs ++ rest) ≠ '}' :: tail := by
  intro heq
  obtain ⟨ws, name, label, rfl, hw⟩ :
      ∃ ws name label, cs = ws ++ (quoteText name ++ label) ∧ Gap ws := by
    cases h with
    | last name hw | cons name hw => exact ⟨_, name, _, rfl, hw⟩
  obtain ⟨body, hbody, -⟩ := readString_quoteText name
  rw [List.append_assoc, List.append_assoc, skipSpace_name hw, hbody] at heq
  cases (List.cons.inj heq).1

mutual

/-- **A spelling is read as its value**, and what follows it is left. -/
theorem Spells.readValue {j : Json} {cs : List Char} (h : Spells j cs) {steps : Nat}
    (hsteps : 2 * cs.length ≤ steps) (rest : List Char) :
    Json.readValue steps (cs ++ rest) = some (j, rest) := by
  obtain ⟨steps, rfl⟩ : ∃ m, steps = m + 1 := by
    obtain ⟨c, cs', rfl, -⟩ := h.head
    exact ⟨steps - 1, by simp only [List.length_cons] at hsteps; omega⟩
  cases h with
  | null | yes | no => rfl
  | string s =>
    obtain ⟨body, hbody, hread⟩ := readString_quoteText s
    rw [hbody, List.cons_append, readValue_string, hread]
    rfl
  | emptyArray hw =>
    rw [List.cons_append, List.append_assoc]
    exact readValue_emptyArray steps (skipSpace_mark hw rfl rest)
  | array h =>
    simp only [List.length_cons] at hsteps
    rw [List.cons_append, readValue_array steps (h.open rest), h.readItems (by omega) rest]
    rfl
  | emptyObject hw =>
    rw [List.cons_append, List.append_assoc]
    exact readValue_emptyObject steps (skipSpace_mark hw rfl rest)
  | object h =>
    simp only [List.length_cons] at hsteps
    rw [List.cons_append, readValue_object steps (h.open rest), h.readMembers (by omega) rest]
    rfl

theorem SpellsItems.readItems {items : List Json} {cs : List Char} (h : SpellsItems items cs)
    {steps : Nat} (hsteps : 2 * cs.length ≤ steps) (rest : List Char) :
    Json.readItems steps (cs ++ rest) = some (items, rest) := by
  cases h with
  | last hw h hx =>
    simp only [List.length_append, List.length_cons] at hsteps
    obtain ⟨steps, rfl⟩ : ∃ m, steps = m + 1 := ⟨steps - 1, by omega⟩
    simp only [List.append_assoc, List.cons_append, List.nil_append]
    refine readItems_last ?_ (skipSpace_mark hx rfl rest)
    rw [readValue_append steps hw]
    exact h.readValue (by omega) _
  | cons hw h hx hrest =>
    simp only [List.length_append, List.length_cons] at hsteps
    obtain ⟨steps, rfl⟩ : ∃ m, steps = m + 1 := ⟨steps - 1, by omega⟩
    simp only [List.append_assoc, List.cons_append]
    refine readItems_cons ?_ (skipSpace_mark hx rfl _) (hrest.readItems (by omega) rest)
    rw [readValue_append steps hw]
    exact h.readValue (by omega) _

theorem SpellsMembers.readMembers {members : List (Option String × Json)} {cs : List Char}
    (h : SpellsMembers members cs) {steps : Nat} (hsteps : 2 * cs.length ≤ steps)
    (rest : List Char) : Json.readMembers steps (cs ++ rest) = some (members, rest) := by
  cases h with
  | last name hw hn hv h hx =>
    simp only [List.length_append, List.length_cons] at hsteps
    obtain ⟨steps, rfl⟩ : ∃ m, steps = m + 1 := ⟨steps - 1, by omega⟩
    simp only [List.append_assoc, List.cons_append, List.nil_append]
    refine readMembers_last (skipSpace_name hw _ _) (skipSpace_mark hn rfl _) ?_
      (skipSpace_mark hx rfl rest)
    rw [readValue_append steps hv]
    exact h.readValue (by omega) _
  | cons name hw hn hv h hx hrest =>
    simp only [List.length_append, List.length_cons] at hsteps
    obtain ⟨steps, rfl⟩ : ∃ m, steps = m + 1 := ⟨steps - 1, by omega⟩
    simp only [List.append_assoc, List.cons_append]
    refine readMembers_cons (skipSpace_name hw _ _) (skipSpace_mark hn rfl _) ?_
      (skipSpace_mark hx rfl _) (hrest.readMembers (by omega) rest)
    rw [readValue_append steps hv]
    exact h.readValue (by omega) _

end

/-- A text that spells a value is parsed as that value. -/
theorem Spells.parse? {j : Json} (h : Spells j cs) :
    Json.parse? (String.ofList cs) = some j := by
  have hread : Json.readValue (2 * cs.length + 2) (cs ++ []) = some (j, []) :=
    h.readValue (by omega) []
  rw [List.append_nil] at hread
  simp only [Json.parse?, String.toList_ofList, hread]
  rfl

/-! ## Printing spells -/

mutual

/-- There is no number in the value. -/
def numberless : Json → Bool
  | number _ => false
  | array items => numberlessItems items
  | object members => numberlessMembers members
  | _ => true

/-- There is no number in the items. -/
def numberlessItems : List Json → Bool
  | [] => true
  | item :: items => numberless item && numberlessItems items

/-- There is no number in the members. -/
def numberlessMembers : List (Option String × Json) → Bool
  | [] => true
  | (_, value) :: members => numberless value && numberlessMembers members

end

mutual

/-- What is printed without space spells the value. -/
theorem spells_compactChars : ∀ j : Json, j.numberless = true → Spells j (compactChars j)
  | .null, _ => .null
  | .bool true, _ => .yes
  | .bool false, _ => .no
  | .number _, h => nomatch h
  | .string s, _ => .string s
  | .array [], _ => .emptyArray gap_nil
  | .array (item :: items), h => .array (spells_compactItems (item :: items) nofun h)
  | .object [], _ => .emptyObject gap_nil
  | .object (member :: members), h => .object (spells_compactMembers (member :: members) nofun h)

theorem spells_compactItems : ∀ items : List Json, items ≠ [] → numberlessItems items = true →
    SpellsItems items (compactItems items)
  | [], hne, _ => absurd rfl hne
  | [item], _, h =>
    .last gap_nil (spells_compactChars item (Bool.and_eq_true_iff.1 h).1) gap_nil
  | item :: next :: items, _, h =>
    .cons gap_nil (spells_compactChars item (Bool.and_eq_true_iff.1 h).1) gap_nil
      (spells_compactItems (next :: items) nofun (Bool.and_eq_true_iff.1 h).2)

theorem spells_compactMembers : ∀ members : List (Option String × Json), members ≠ [] →
    numberlessMembers members = true → SpellsMembers members (compactMembers members)
  | [], hne, _ => absurd rfl hne
  | [(name, value)], _, h => by
    have hvalue := spells_compactChars value (Bool.and_eq_true_iff.1 h).1
    have hlast := SpellsMembers.last name gap_nil gap_nil gap_nil hvalue gap_nil
    rwa [compactMembers, List.append_assoc]
  | (name, value) :: next :: members, _, h => by
    have hvalue := spells_compactChars value (Bool.and_eq_true_iff.1 h).1
    have hmembers := spells_compactMembers (next :: members) nofun (Bool.and_eq_true_iff.1 h).2
    have hcons := SpellsMembers.cons name gap_nil gap_nil gap_nil hvalue gap_nil hmembers
    simpa only [compactMembers, List.append_assoc, List.cons_append, List.nil_append] using hcons

end

mutual

/-- What is printed on lines spells the value, at whatever depth. -/
theorem spells_prettyChars : ∀ (depth : Nat) (j : Json), j.numberless = true →
    Spells j (prettyChars depth j)
  | _, .null, _ => .null
  | _, .bool true, _ => .yes
  | _, .bool false, _ => .no
  | _, .number _, h => nomatch h
  | _, .string s, _ => .string s
  | _, .array [], _ => .emptyArray gap_nil
  | depth, .array (item :: items), h => .array (spells_prettyItems depth (item :: items) nofun h)
  | _, .object [], _ => .emptyObject gap_nil
  | depth, .object (member :: members), h =>
    .object (spells_prettyMembers depth (member :: members) nofun h)

theorem spells_prettyItems : ∀ (depth : Nat) (items : List Json), items ≠ [] →
    numberlessItems items = true → SpellsItems items (prettyItems depth items)
  | _, [], hne, _ => absurd rfl hne
  | depth, [item], _, h => by
    have hitem := spells_prettyChars (depth + 1) item (Bool.and_eq_true_iff.1 h).1
    have hlast := SpellsItems.last (gap_newLine (depth + 1)) hitem (gap_newLine depth)
    rwa [prettyItems, List.append_assoc, List.append_assoc]
  | depth, item :: next :: items, _, h => by
    have hitem := spells_prettyChars (depth + 1) item (Bool.and_eq_true_iff.1 h).1
    have hitems := spells_prettyItems depth (next :: items) nofun (Bool.and_eq_true_iff.1 h).2
    have hcons := SpellsItems.cons (gap_newLine (depth + 1)) hitem gap_nil hitems
    simpa only [prettyItems, List.append_assoc, List.cons_append, List.nil_append] using hcons

theorem spells_prettyMembers : ∀ (depth : Nat) (members : List (Option String × Json)),
    members ≠ [] → numberlessMembers members = true →
    SpellsMembers members (prettyMembers depth members)
  | _, [], hne, _ => absurd rfl hne
  | depth, [(name, value)], _, h => by
    have hvalue := spells_prettyChars (depth + 1) value (Bool.and_eq_true_iff.1 h).1
    have hlast := SpellsMembers.last name (gap_newLine (depth + 1)) gap_nil gap_singleton
      hvalue (gap_newLine depth)
    simpa only [prettyMembers, List.append_assoc, List.cons_append, List.nil_append] using hlast
  | depth, (name, value) :: next :: members, _, h => by
    have hvalue := spells_prettyChars (depth + 1) value (Bool.and_eq_true_iff.1 h).1
    have hmembers := spells_prettyMembers depth (next :: members) nofun
      (Bool.and_eq_true_iff.1 h).2
    have hcons := SpellsMembers.cons name (gap_newLine (depth + 1)) gap_nil gap_singleton
      hvalue gap_nil hmembers
    simpa only [prettyMembers, List.append_assoc, List.cons_append, List.nil_append] using hcons

end

/-- **What is printed is read back**, in either form. -/
theorem parse?_compact {j : Json} (h : j.numberless = true) : parse? j.compact = some j :=
  (spells_compactChars j h).parse?

theorem parse?_pretty {j : Json} (h : j.numberless = true) : parse? j.pretty = some j :=
  (spells_prettyChars 0 j h).parse?

end FieldVault.Json

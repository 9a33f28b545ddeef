/-
Where a setting comes from.

A settings file is a document of at most three settings, each given at most once, in any order and
in any spelling. For each text a variable that is not blank has the last word, after it the file
unless what it gives is blank, and a text that neither of them gives is left out. So no text of the
settings is ever blank, and to apply the variables once more changes nothing.
-/
import FieldVault.Proofs.Settings.Spelling
import FieldVault.Proofs.Text.Blank
import FieldVault.Settings

set_option autoImplicit false

namespace FieldVault.Settings

open Text

variable {secret seed fromEnv fromFile chosen : Option String} {strict : Option Bool}
  {document : List (String × Value)} {settings : Settings} {text name path : String}
  {vars : String → Option String}

/-! ## What a document holds -/

/-- A value under a name, if there is one. -/
def entry (name : String) (v : Option Value) : List (String × Value) := (v.map (name, ·)).toList

/-- A document of these settings, in the order of their names. -/
def entries (secret seed : Option String) (strict : Option Bool) : List (String × Value) :=
  entry "encryption_key" (secret.map .text) ++ entry "database_url" (seed.map .text) ++
    entry "strict" (strict.map .flag)

/-- The text is a document of these settings, as they are given, and of nothing else. -/
def Holds (text : String) (secret seed : Option String) (strict : Option Bool) : Prop :=
  ∃ document, Document.parse? text = some document ∧ document.Perm (entries secret seed strict)

/-- What settings that are given in a document come to. -/
def ofGiven (secret seed : Option String) (strict : Option Bool) : Settings :=
  ⟨nonBlank secret, nonBlank seed, strict.getD false⟩

/-- The settings of a document that have a name. -/
def named (document : List (String × Value)) (name : String) : List (String × Value) :=
  document.filter (·.1 = name)

theorem named_entries (secret seed : Option String) (strict : Option Bool) :
    named (entries secret seed strict) "encryption_key" =
      entry "encryption_key" (secret.map .text) ∧
    named (entries secret seed strict) "database_url" = entry "database_url" (seed.map .text) ∧
    named (entries secret seed strict) "strict" = entry "strict" (strict.map .flag) := by
  cases secret <;> cases seed <;> cases strict <;> exact ⟨rfl, rfl, rfl⟩

theorem eq_entry_of_perm {v : Option Value} (h : document.Perm (entry name v)) :
    document = entry name v := by
  cases v with
  | none => exact List.perm_nil.1 h
  | some v => exact List.perm_singleton.1 h

theorem name_of_named {e : String × Value} (h : named document name = [e]) : e.1 = name := by
  have he : e ∈ named document name := by
    rw [h]
    exact List.mem_singleton_self e
  exact of_decide_eq_true (List.mem_filter.1 he).2

theorem textOf?_eq_some_iff {r : Option String} : textOf? document name = some r ↔
    ∃ s : Option String, named document name = entry name (s.map .text) ∧ r = nonBlank s := by
  unfold textOf?
  constructor
  · intro h
    split at h
    · rename_i hnone
      exact ⟨none, hnone, (Option.some.inj h).symm⟩
    · rename_i name' s hone
      obtain rfl : name' = name := name_of_named hone
      exact ⟨some s, hone, (Option.some.inj h).symm⟩
    · cases h
  · rintro ⟨s, hnamed, rfl⟩
    rw [named] at hnamed
    rw [hnamed]
    cases s <;> rfl

theorem flagOf?_eq_some_iff {r : Bool} : flagOf? document name = some r ↔
    ∃ b : Option Bool, named document name = entry name (b.map .flag) ∧ r = b.getD false := by
  unfold flagOf?
  constructor
  · intro h
    split at h
    · rename_i hnone
      exact ⟨none, hnone, (Option.some.inj h).symm⟩
    · rename_i name' b hone
      obtain rfl : name' = name := name_of_named hone
      exact ⟨some b, hone, (Option.some.inj h).symm⟩
    · cases h
  · rintro ⟨b, hnamed, rfl⟩
    rw [named] at hnamed
    rw [hnamed]
    cases b <;> rfl

/-- A document without other names is what it has under its three names. -/
theorem perm_named (h : ∀ e ∈ document, e.1 ∈ names) :
    document.Perm (named document "encryption_key" ++ named document "database_url" ++
      named document "strict") := by
  induction document with
  | nil => exact .refl _
  | cons e document ih =>
    have hrest := (ih fun e' he' => h e' (List.mem_cons_of_mem e he')).cons e
    have he := h e List.mem_cons_self
    simp only [names, List.mem_cons, List.not_mem_nil, or_false] at he
    unfold named at hrest ⊢
    rcases he with hname | hname | hname
    · simpa [List.filter_cons, hname] using hrest
    · rw [List.append_assoc] at hrest
      simpa [List.filter_cons, hname] using hrest.trans List.perm_middle.symm
    · simpa [List.filter_cons, hname] using hrest.trans List.perm_middle.symm

theorem name_of_mem_entries {e : String × Value} (h : e ∈ entries secret seed strict) :
    e.1 ∈ names := by
  simp only [entries, entry, List.mem_append, Option.mem_toList, Option.map_eq_some_iff] at h
  rcases h with (⟨v, -, rfl⟩ | ⟨v, -, rfl⟩) | ⟨v, -, rfl⟩
  · exact List.mem_cons_self
  · exact List.mem_cons_of_mem _ List.mem_cons_self
  · exact List.mem_cons_of_mem _ (List.mem_cons_of_mem _ List.mem_cons_self)

theorem ofDocument?_eq_some_iff : ofDocument? document = some settings ↔
    (∀ e ∈ document, e.1 ∈ names) ∧
      textOf? document "encryption_key" = some settings.encryptionKey ∧
      textOf? document "database_url" = some settings.databaseUrl ∧
      flagOf? document "strict" = some settings.strict := by
  have hall : (document.all fun e => names.contains e.1) = true ↔ ∀ e ∈ document, e.1 ∈ names := by
    simp only [List.all_eq_true, List.contains_iff_mem]
  unfold ofDocument?
  by_cases hnames : (document.all fun e => names.contains e.1) = true
  · rw [if_pos hnames]
    simp only [Option.bind_eq_bind, Option.bind_eq_some_iff, Option.pure_def, Option.some.injEq]
    constructor
    · rintro ⟨a, ha, b, hb, c, hc, rfl⟩
      exact ⟨hall.1 hnames, ha, hb, hc⟩
    · rintro ⟨-, ha, hb, hc⟩
      exact ⟨_, ha, _, hb, _, hc, rfl⟩
  · rw [if_neg hnames]
    constructor
    · intro h
      cases h
    · rintro ⟨h, -⟩
      exact absurd (hall.2 h) hnames

/-- A document comes to settings just if it gives each of them at most once, and nothing else. -/
theorem ofDocument?_eq_some_iff_perm : ofDocument? document = some settings ↔
    ∃ secret seed strict, document.Perm (entries secret seed strict) ∧
      settings = ofGiven secret seed strict := by
  rw [ofDocument?_eq_some_iff, textOf?_eq_some_iff, textOf?_eq_some_iff, flagOf?_eq_some_iff]
  constructor
  · rintro ⟨hnames, ⟨secret, hsecret, hkey⟩, ⟨seed, hseed, hurl⟩, ⟨strict, hstrict, hflag⟩⟩
    refine ⟨secret, seed, strict, ?_, ?_⟩
    · have hperm := perm_named hnames
      rwa [hsecret, hseed, hstrict] at hperm
    · rw [ofGiven, ← hkey, ← hurl, ← hflag]
  · rintro ⟨secret, seed, strict, hperm, rfl⟩
    obtain ⟨hsecret, hseed, hstrict⟩ := named_entries secret seed strict
    refine ⟨fun e he => name_of_mem_entries (hperm.mem_iff.1 he), ⟨secret, ?_, rfl⟩,
      ⟨seed, ?_, rfl⟩, ⟨strict, ?_, rfl⟩⟩
    · exact eq_entry_of_perm (hsecret ▸ hperm.filter _)
    · exact eq_entry_of_perm (hseed ▸ hperm.filter _)
    · exact eq_entry_of_perm (hstrict ▸ hperm.filter _)

/-- A text is read as settings just if it holds some, and blank texts among them are left out. -/
theorem parse_eq_ok_iff : parse text = .ok settings ↔
    ∃ secret seed strict, Holds text secret seed strict ∧
      settings = ofGiven secret seed strict := by
  have hread : parse text = .ok settings ↔
      ∃ document, Document.parse? text = some document ∧ ofDocument? document = some settings := by
    unfold parse
    rw [← Option.bind_eq_some_iff, Option.bind_eq_bind]
    cases (Document.parse? text).bind ofDocument? with
    | none => exact ⟨nofun, nofun⟩
    | some s => simp only [Except.ok.injEq, Option.some.injEq]
  rw [hread]
  constructor
  · rintro ⟨document, hparse, hof⟩
    obtain ⟨secret, seed, strict, hperm, hsettings⟩ := ofDocument?_eq_some_iff_perm.1 hof
    exact ⟨secret, seed, strict, ⟨document, hparse, hperm⟩, hsettings⟩
  · rintro ⟨secret, seed, strict, ⟨document, hparse, hperm⟩, hsettings⟩
    have hof := ofDocument?_eq_some_iff_perm.2 ⟨secret, seed, strict, hperm, hsettings⟩
    exact ⟨document, hparse, hof⟩

/-- There is a text for any settings. -/
theorem exists_holds (secret seed : Option String) (strict : Option Bool) :
    ∃ text, Holds text secret seed strict := by
  refine ⟨Document.print (entries secret seed strict), _, Document.parse?_print ?_, .refl _⟩
  intro e he
  have hbare : ∀ name ∈ names, Document.IsBare name := by decide +kernel
  exact hbare e.1 (name_of_mem_entries he)

/-! ## Which source a text comes from -/

/-- The text of a setting, by what the environment and the file give for it. -/
inductive Chosen (fromEnv fromFile : Option String) : Option String → Prop
  /-- The variable has the last word, unless it is blank. -/
  | environment {t : String} (hset : fromEnv = some t) (hvalue : ¬Blank t) : Chosen _ _ (some t)
  /-- After it the file is asked. -/
  | file {t : String} (hunset : Absent fromEnv) (hgiven : fromFile = some t)
      (hvalue : ¬Blank t) : Chosen _ _ (some t)
  /-- What neither of them gives is left out. -/
  | nothing (hunset : Absent fromEnv) (hmissing : Absent fromFile) : Chosen _ _ none

/-- The rules leave no choice, and are what the code computes. -/
theorem chosen_iff : Chosen fromEnv fromFile chosen ↔
    chosen = (nonBlank fromEnv).or (nonBlank fromFile) := by
  constructor
  · intro h
    cases h with
    | environment hset hvalue => rw [hset, nonBlank_of_not_blank hvalue, Option.some_or]
    | file hunset hgiven hvalue =>
      rw [nonBlank_of_absent hunset, hgiven, nonBlank_of_not_blank hvalue, Option.none_or]
    | nothing hunset hmissing =>
      rw [nonBlank_of_absent hunset, nonBlank_of_absent hmissing, Option.none_or]
  · rintro rfl
    rcases absent_or_not_blank fromEnv with hunset | ⟨t, rfl, ht⟩
    · rw [nonBlank_of_absent hunset, Option.none_or]
      rcases absent_or_not_blank fromFile with hmissing | ⟨t, rfl, ht⟩
      · rw [nonBlank_of_absent hmissing]
        exact .nothing hunset hmissing
      · rw [nonBlank_of_not_blank ht]
        exact .file hunset rfl ht
    · rw [nonBlank_of_not_blank ht, Option.some_or]
      exact .environment rfl ht

/-- No blank text is ever chosen. -/
theorem Chosen.not_blank {t : String} (h : Chosen fromEnv fromFile (some t)) : ¬Blank t := by
  cases h with
  | environment _ hvalue => exact hvalue
  | file _ _ hvalue => exact hvalue

/-- Applying the variables again changes nothing. -/
theorem override_override (settings : Settings) (vars : String → Option String) :
    (settings.override vars).override vars = settings.override vars := by
  unfold override
  congr 1
  · rw [← Option.or_assoc, Option.or_self]
  · rw [← Option.or_assoc, Option.or_self]
  · cases (nonBlank (vars strictVariable)).map isYes <;> rfl

theorem load_eq_ok_iff : load path (.ok text) vars = .ok settings ↔
    ∃ given, parse text = .ok given ∧ settings = given.override vars := by
  unfold load
  cases hparse : parse text with
  | error e => simp only [hparse, reduceCtorEq, false_and, exists_false]
  | ok given =>
    simp only [hparse, Except.ok.injEq, exists_eq_left']
    exact eq_comm

/-- Settings are loaded from a text that holds some, each text of theirs from where it is given. -/
theorem exists_load (h : Holds text secret seed strict) (path : String)
    (vars : String → Option String) : ∃ settings, load path (.ok text) vars = .ok settings ∧
      Chosen (vars KeySource.secretVariable) secret settings.encryptionKey ∧
      Chosen (vars KeySource.seedVariable) seed settings.databaseUrl := by
  have hparse := parse_eq_ok_iff.2 ⟨secret, seed, strict, h, rfl⟩
  exact ⟨_, load_eq_ok_iff.2 ⟨_, hparse, rfl⟩, chosen_iff.2 rfl, chosen_iff.2 rfl⟩

end FieldVault.Settings

/-
All ways of configuring a key lead to the same key.

A secret and a seed can be handed over outright, put into variables, or written into a settings
file, with or without the variables on top. Blank values are dropped on some of these ways and kept
on others, but an attempt at a key drops them in the end, and none of the ways touches a value that
is not blank. A key file is the one place where white space around the secret is taken away; what is
left is the secret as if it had been handed over.
-/
import FieldVault.Proofs.Key.Provider
import FieldVault.Proofs.Key.Resolution
import FieldVault.Proofs.Settings.Precedence
import FieldVault.Proofs.Text.Trim

set_option autoImplicit false

namespace FieldVault

open Text

variable {secret secret' seed seed' : Option String} {a b : KeySource}

/-! ## Sources that agree -/

/-- However often the key has been asked for, the next request gets the same from both sources. -/
def KeySource.Agrees (a b : KeySource) : Prop :=
  ∀ n, ((KeyProvider.unasked a).afterRequests n).get.1 =
    ((KeyProvider.unasked b).afterRequests n).get.1

namespace KeyProvider

/-- A request sees nothing of a source but what the attempts on it come to. -/
theorem get_congr (p : KeyProvider) (h : ∀ n, (p.source n).resolve = (b n).resolve) :
    get { p with source := b } = (p.get.1, { p.get.2 with source := b }) := by
  obtain ⟨source, attempts, _ | key⟩ := p
  · simp only [get, h]
  · rfl

theorem source_get (p : KeyProvider) : p.get.2.source = p.source := by
  unfold get
  cases p.key <;> rfl

theorem source_afterRequests (p : KeyProvider) (n : Nat) :
    (p.afterRequests n).source = p.source := by
  induction n with
  | zero => rfl
  | succ n ih => rw [afterRequests, source_get, ih]

theorem afterRequests_congr (p : KeyProvider) (h : ∀ n, (p.source n).resolve = (b n).resolve)
    (n : Nat) : afterRequests { p with source := b } n =
      { p.afterRequests n with source := b } := by
  induction n with
  | zero => rfl
  | succ n ih =>
    rw [afterRequests, ih, get_congr _ (by rwa [source_afterRequests]), afterRequests]

end KeyProvider

/-- An attempt does not tell a blank value from none. -/
theorem KeyAnswer.resolve_congr (hsecret : nonBlank secret = nonBlank secret')
    (hseed : nonBlank seed = nonBlank seed') :
    resolve ⟨.ok secret, .ok seed⟩ = resolve ⟨.ok secret', .ok seed'⟩ := by
  rw [resolve_eq, resolve_eq]
  simp only [hsecret, hseed]

namespace KeySource

theorem agrees_of_resolve (h : ∀ n, (a n).resolve = (b n).resolve) : a.Agrees b := by
  intro n
  have hafter := (KeyProvider.unasked a).afterRequests_congr h n
  have hget := ((KeyProvider.unasked a).afterRequests n).get_congr (b := b)
    (by rwa [KeyProvider.source_afterRequests])
  show _ = (KeyProvider.afterRequests { KeyProvider.unasked a with source := b } n).get.1
  rw [hafter, hget]

/-- Blank values make no difference to a source. -/
theorem fixed_agrees (hsecret : nonBlank secret = nonBlank secret')
    (hseed : nonBlank seed = nonBlank seed') :
    (fixed secret seed).Agrees (fixed secret' seed') :=
  agrees_of_resolve fun _ => KeyAnswer.resolve_congr hsecret hseed

end KeySource

theorem Text.nonBlank_nonBlank (s : Option String) : nonBlank (nonBlank s) = nonBlank s := by
  unfold nonBlank
  simp only [Option.filter_filter, Bool.and_self]

/-! ## Key files -/

/-- What is left of nothing but white space is no secret either way. -/
theorem Text.nonBlank_filter_ne_empty (s : String) :
    nonBlank ((some s).filter (· ≠ "")) = nonBlank (some s) := by
  by_cases hempty : s = ""
  · subst hempty
    rfl
  · rw [Option.filter_some, if_pos (decide_eq_true hempty)]

theorem KeySource.file_agrees (content : String) (seed : Option String) :
    (file (fun _ => .ok (Utf8.encode content)) seed).Agrees (fixed (some (trim content)) seed) := by
  apply agrees_of_resolve
  intro n
  simp only [file, Utf8.decode_encode]
  exact KeyAnswer.resolve_congr (nonBlank_filter_ne_empty _) rfl

/-- A text that holds no white space is left as it is, with a line break behind it or without. -/
theorem Text.trim_append_lineBreak {s : String} (h : ∀ c ∈ s.toList, isWhiteSpace c = false) :
    trim (s ++ "\n") = s := by
  have hbare : Bare isWhiteSpace s.toList :=
    ⟨fun c hc => h c (List.mem_of_mem_head? hc), fun c hc => h c (List.mem_of_mem_getLast? hc)⟩
  have hnothing : ∀ c ∈ ([] : List Char), isWhiteSpace c = true := List.all_eq_true.1 rfl
  have hbreak : ∀ c ∈ ['\n'], isWhiteSpace c = true := List.all_eq_true.1 rfl
  have htrim : trimBoth isWhiteSpace ([] ++ s.toList ++ ['\n']) = trimBoth isWhiteSpace s.toList :=
    trimBoth_append hnothing hbreak s.toList
  rw [trim, String.toList_append, show "\n".toList = ['\n'] from rfl]
  rw [List.nil_append] at htrim
  rw [htrim, trimBoth_of_bare hbare, String.ofList_toList]

/-- A letter or digit of ASCII is no white space. -/
theorem Text.of_isAlphanum {c : Char} (h : c.isAlphanum = true) :
    isWhiteSpace c = false ∧ c.toNat < 0x80 := by
  have hbounds : (0x41 ≤ c.toNat ∧ c.toNat ≤ 0x5A ∨ 0x61 ≤ c.toNat ∧ c.toNat ≤ 0x7A) ∨
      0x30 ≤ c.toNat ∧ c.toNat ≤ 0x39 := by
    have within {first last : Char} (h : (c.val ≥ first.val && c.val ≤ last.val) = true) :
        first.toNat ≤ c.toNat ∧ c.toNat ≤ last.toNat := by
      rw [Bool.and_eq_true, decide_eq_true_eq, decide_eq_true_eq] at h
      exact h.imp UInt32.le_iff_toNat_le.1 UInt32.le_iff_toNat_le.1
    have hclasses : (c.isUpper || c.isLower || c.isDigit) = true := h
    rw [Bool.or_eq_true, Bool.or_eq_true] at hclasses
    refine hclasses.imp (Or.imp (fun hupper => ?_) within) within
    exact (of_decide_eq_true hupper).imp UInt32.le_iff_toNat_le.1 UInt32.le_iff_toNat_le.1
  refine ⟨?_, by omega⟩
  rw [← Bool.not_eq_true, isWhiteSpace_iff]
  simp only [whiteSpace, List.mem_cons, List.not_mem_nil, or_false]
  omega

/-- The first requests change nothing about the answer to the later ones. -/
theorem KeyProvider.Answers.afterRequests {p : KeyProvider} {r : Except KeyError Key}
    (h : p.Answers r) (n : Nat) : (p.afterRequests n).Answers r := by
  induction n with
  | zero => exact h
  | succ n ih => exact ih.get

namespace KeySource

/-- A secret of thirty-two letters and digits is the key, however often it is asked for. -/
theorem outcome_fixed_alphanumeric {s : String} (hlength : s.toList.length = 32)
    (h : ∀ c ∈ s.toList, c.isAlphanum = true) (seed : Option String) (n : Nat) :
    ∃ key, ((KeyProvider.unasked (fixed (some s) seed)).afterRequests n).get.1.outcome = .ok key ∧
      key.bytes = s.toList.map fun c => UInt8.ofNat c.toNat := by
  have hbytes : Utf8.encode s = s.toList.map fun c => UInt8.ofNat c.toNat :=
    Utf8.encodeChars_of_ascii fun c hc => (of_isAlphanum (h c hc)).2
  have hblank : ¬Blank s := by
    intro hblank
    obtain ⟨c, hc⟩ := List.exists_mem_of_length_pos (l := s.toList) (by omega)
    have hspace := (isWhiteSpace_iff c).2 (hblank c hc)
    rw [(of_isAlphanum (h c hc)).1] at hspace
    exact absurd hspace (by decide)
  have hsized : (Utf8.encode s).length = 32 := by
    rw [hbytes, List.length_map, hlength]
  let key : Key := ⟨Utf8.encode s, .inr (.inr hsized)⟩
  have hends : KeyAnswer.EndsIn ⟨.ok (some s), .ok seed⟩ (.ok key) := .secretFits _ hblank rfl
  have hanswers : (KeyProvider.unasked (fixed (some s) seed)).Answers (.ok key) :=
    fun _ _ => hends.outcome_resolve
  exact ⟨key, (hanswers.afterRequests n).outcome_get, hbytes⟩

/-! ## The routes -/

/-- **All routes lead to the same key.** Whatever the secret and the seed are, if any: handed over
by the host, read from the environment, taken from settings that the environment gives, or from a
settings file that holds them, they get every request for the key the same answer; and there is a
settings file for all of them. Settings are loaded from any text that holds some, and from no other.
Each of their texts comes from the variable, or else from the file, or is left out, so none of them
is blank; the same variables on top change nothing. A key file answers as its trimmed content does,
so that thirty-two letters and digits and a line break give just these bytes. -/
theorem routes_agree :
    (∀ secret seed : Option String,
      (∀ vars : String → Option String,
        vars secretVariable = secret → vars seedVariable = seed →
        (environment vars).Agrees (fixed secret seed) ∧
        (Settings.ofVariables vars).keySource.Agrees (fixed secret seed)) ∧
      ∀ strict : Option Bool, (∃ text, Settings.Holds text secret seed strict) ∧
        ∀ path text, Settings.Holds text secret seed strict →
          ∃ settings, Settings.parse text = .ok settings ∧
            Settings.load path (.ok text) (fun _ => none) = .ok settings ∧
            settings.keySource.Agrees (fixed secret seed)) ∧
    (∀ (path text : String) (vars : String → Option String),
      (∀ settings, Settings.load path (.ok text) vars = .ok settings →
        ∃ secret seed strict, Settings.Holds text secret seed strict) ∧
      ∀ secret seed strict, Settings.Holds text secret seed strict →
        ∃ settings, Settings.load path (.ok text) vars = .ok settings ∧
          Settings.Chosen (vars secretVariable) secret settings.encryptionKey ∧
          Settings.Chosen (vars seedVariable) seed settings.databaseUrl ∧
          (∀ t, settings.encryptionKey = some t ∨ settings.databaseUrl = some t → ¬Blank t) ∧
          settings.override vars = settings ∧
          settings.keySource.Agrees (fixed settings.encryptionKey settings.databaseUrl)) ∧
    (∀ (settings : Settings) (vars : String → Option String),
      (settings.override vars).override vars = settings.override vars) ∧
    (∀ (content : String) (seed : Option String),
      (file (fun _ => .ok (Utf8.encode content)) seed).Agrees
        (fixed (some (trim content)) seed)) ∧
    ∀ (s : String) (seed : Option String) (n : Nat), s.toList.length = 32 →
      (∀ c ∈ s.toList, c.isAlphanum = true) →
      ∃ key, ((KeyProvider.unasked
          (file (fun _ => .ok (Utf8.encode (s ++ "\n"))) seed)).afterRequests n).get.1.outcome =
            .ok key ∧
        key.bytes = s.toList.map fun c => UInt8.ofNat c.toNat := by
  refine ⟨fun secret seed => ⟨fun vars hsecret hseed => ⟨?_, ?_⟩, fun strict =>
    ⟨Settings.exists_holds secret seed strict, fun path text hholds => ?_⟩⟩,
    fun path text vars => ⟨fun settings hload => ?_, fun secret seed strict hholds => ?_⟩,
    Settings.override_override, file_agrees, fun s seed n hlength halphanum => ?_⟩
  · rw [environment, hsecret, hseed]
    exact fixed_agrees (nonBlank_nonBlank _) (nonBlank_nonBlank _)
  · rw [Settings.keySource, Settings.ofVariables, Settings.override, hsecret, hseed,
      Option.or_none, Option.or_none]
    exact fixed_agrees (nonBlank_nonBlank _) (nonBlank_nonBlank _)
  · have hparse := Settings.parse_eq_ok_iff.2 ⟨secret, seed, strict, hholds, rfl⟩
    exact ⟨_, hparse, Settings.load_eq_ok_iff.2 ⟨_, hparse, rfl⟩,
      fixed_agrees (nonBlank_nonBlank _) (nonBlank_nonBlank _)⟩
  · obtain ⟨given, hparse, -⟩ := Settings.load_eq_ok_iff.1 hload
    obtain ⟨secret, seed, strict, hholds, -⟩ := Settings.parse_eq_ok_iff.1 hparse
    exact ⟨secret, seed, strict, hholds⟩
  · obtain ⟨settings, hload, hkey, hurl⟩ := Settings.exists_load hholds path vars
    refine ⟨settings, hload, hkey, hurl, ?_, ?_, fun _ => rfl⟩
    · rintro t (ht | ht)
      · exact Settings.Chosen.not_blank (ht ▸ hkey)
      · exact Settings.Chosen.not_blank (ht ▸ hurl)
    · obtain ⟨given, -, rfl⟩ := Settings.load_eq_ok_iff.1 hload
      exact Settings.override_override given vars
  · have htrim := trim_append_lineBreak fun c hc => (of_isAlphanum (halphanum c hc)).1
    rw [file_agrees _ seed n, htrim]
    exact outcome_fixed_alphanumeric hlength halphanum seed n

/-- The variable of the secret is blank: on its own it leads to the seed, but over a settings file
that gives a secret it does not hide that one. -/
theorem routes_agree_blank :
    let vars : String → Option String := fun name =>
      if name = secretVariable then some " "
      else if name = seedVariable then some "postgres://db" else none
    let text := "strict = true\nencryption_key = '1234567891123456'\n"
    (environment vars).Agrees (fixed (some " ") (some "postgres://db")) ∧
    Settings.Holds text (some "1234567891123456") none (some true) ∧
    (∃ settings, Settings.load "settings.toml" (.ok text) vars = .ok settings ∧
      settings.encryptionKey = some "1234567891123456" ∧
      settings.databaseUrl = some "postgres://db") ∧
    ∃ key, ((KeyProvider.unasked
        (file (fun _ => .ok (Utf8.encode ("0123456789abcdefghijABCDEFGHIJzZ" ++ "\n")))
          none)).afterRequests 3).get.1.outcome = .ok key ∧
      key.bytes.head? = some 0x30 := by
  intro vars text
  obtain ⟨hroutes, hloads, -, -, hfile⟩ := routes_agree
  have hholds : Settings.Holds text (some "1234567891123456") none (some true) :=
    ⟨[("strict", .flag true), ("encryption_key", .text "1234567891123456")], by decide +kernel,
      .swap _ _ []⟩
  refine ⟨((hroutes _ _).1 vars rfl rfl).1, hholds, ?_, ?_⟩
  · obtain ⟨settings, hload, hkey, hurl, -⟩ := (hloads "settings.toml" text vars).2 _ _ _ hholds
    refine ⟨settings, hload, ?_, ?_⟩
    · rw [Settings.chosen_iff.1 hkey]
      decide +kernel
    · rw [Settings.chosen_iff.1 hurl]
      decide +kernel
  · obtain ⟨key, hkey, hbytes⟩ := hfile "0123456789abcdefghijABCDEFGHIJzZ" none 3
      (by decide +kernel) (List.all_eq_true.1 (by decide +kernel))
    refine ⟨key, hkey, ?_⟩
    rw [hbytes]
    decide +kernel

end KeySource

end FieldVault

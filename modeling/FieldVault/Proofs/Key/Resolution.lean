/-
How a key comes to be settled.

An attempt is decided by the answers of the source, one after the other: a failure to tell the
secret ends it, a secret that is not blank ends it too, one way or the other, and only where there
is none does it depend on the seed. `EndsIn` gives these rules case by case, and the code computes
them. A provider makes one attempt for each request until one of them succeeds. While all of them
fail, nothing is left of them but their number; the first key that comes out stays, and with it
everything about the provider, so that it no longer matters what the source would answer.
-/
import FieldVault.Key.Provider
import FieldVault.Proofs.Bytes.Hex
import FieldVault.Proofs.Text.Blank
import FieldVault.Proofs.Text.Utf8

set_option autoImplicit false

namespace FieldVault

/-! ## Derived secrets -/

/-- ASCII characters are the bytes of their numbers. -/
theorem Utf8.encodeChars_of_ascii {cs : List Char} (h : ∀ c ∈ cs, c.toNat < 0x80) :
    encodeChars cs = cs.map fun c => UInt8.ofNat c.toNat := by
  induction cs with
  | nil => rfl
  | cons c cs ih =>
    have hrest := ih fun d hd => h d (List.mem_cons_of_mem c hd)
    rw [encodeChars] at hrest
    rw [encodeChars, List.flatMap_cons, encodeChar_of_width1 rfl (h c List.mem_cons_self), hrest]
    rfl

theorem Digest.length_md5 (message : Bytes) : (md5 message).length = 16 := by
  rw [md5, Md5.State.bytes, Word.length_bytes]
  rfl

namespace Key

theorem ofSecret_of_bytes {secret : String} {key : Key} (h : key.bytes = Utf8.encode secret) :
    ofSecret secret = .ok key := by
  have hsized := key.sized
  rw [h] at hsized
  obtain ⟨bytes, sized⟩ := key
  simp only at h
  subst h
  rw [ofSecret, ofBytes, dif_pos hsized]

theorem ofSecret_of_size {secret : String} (h16 : (Utf8.encode secret).length ≠ 16)
    (h24 : (Utf8.encode secret).length ≠ 24) (h32 : (Utf8.encode secret).length ≠ 32) :
    ofSecret secret = .error (.invalidLength (Utf8.encode secret).length) := by
  rw [ofSecret, ofBytes, dif_neg]
  rintro (h | h | h)
  · exact h16 h
  · exact h24 h
  · exact h32 h

/-- A secret is derived as the thirty-two digits of the MD5 of its seed, in lower case. -/
theorem secretOfSeed_digits (seed : String) :
    (secretOfSeed seed).toList.length = 32 ∧
      (∀ c ∈ (secretOfSeed seed).toList, c ∈ Hex.lowerDigits) ∧
      Hex.bytes? (secretOfSeed seed).toList = some (Digest.md5 (Utf8.encode seed)) := by
  rw [secretOfSeed, Hex.encode, String.toList_ofList]
  refine ⟨?_, fun _ => Hex.mem_lowerDigits_of_mem_digits, Hex.bytes?_digits _⟩
  rw [Hex.length_digits, Digest.length_md5]

example :
    secretOfSeed "jdbc:postgresql://localhost:5432/keycloak" =
      "0ef3141a4b2e0611598fc20c6728a67f" := by
  decide +kernel

/-- A derived secret makes a key of the longest kind. -/
theorem length_secretOfSeed (seed : String) : (Utf8.encode (secretOfSeed seed)).length = 32 := by
  have hascii : ∀ c ∈ (secretOfSeed seed).toList, c.toNat < 0x80 := by
    rw [secretOfSeed, Hex.encode, String.toList_ofList]
    exact Hex.forall_mem_digits (P := fun c => c.toNat < 0x80) (by decide) _
  rw [Utf8.encode, Utf8.encodeChars_of_ascii hascii, List.length_map, (secretOfSeed_digits seed).1]

end Key

/-! ## One attempt -/

namespace KeyAnswer

section Steps

variable {answer : KeyAnswer} {question : KeyQuestion} {given : Option String} {text : String}
  {e : KeyError} {i : Inquiry}

theorem ask_of_ok (h : answer.to question = .ok given) (i : Inquiry) :
    answer.ask question i = .ok given { i with asked := i.asked ++ [question] } := by
  rw [ask, h]
  rfl

theorem resolve_of_secretToUse (h : answer.secretToUse {} = .ok text i) :
    answer.resolve = { i with outcome := Key.ofSecret text } := by
  simp only [resolve, bind, EStateM.bind, h]
  cases Key.ofSecret text <;> rfl

theorem resolve_of_secretToUse_error (h : answer.secretToUse {} = .error e i) :
    answer.resolve = { i with outcome := .error e } := by
  simp only [resolve, bind, EStateM.bind, h]

end Steps

/-- What an attempt comes to, by the answers that it meets on its way. -/
theorem resolve_eq (answer : KeyAnswer) : answer.resolve =
    match answer.secret with
    | .error e => { asked := [.secret], outcome := .error e }
    | .ok secret =>
      match Text.nonBlank secret with
      | some secret => { asked := [.secret], outcome := Key.ofSecret secret }
      | none =>
        match answer.seed with
        | .error e => { asked := [.secret, .seed], outcome := .error e }
        | .ok seed =>
          match Text.nonBlank seed with
          | none => { asked := [.secret, .seed], outcome := .error .missing }
          | some seed =>
            { asked := [.secret, .seed], derived := true,
              outcome := Key.ofSecret (Key.secretOfSeed seed) } := by
  obtain ⟨secret | secret, seed⟩ := answer
  · rfl
  have hsecret : ask ⟨.ok secret, seed⟩ .secret {} = .ok secret { asked := [.secret] } :=
    ask_of_ok rfl {}
  cases hs : Text.nonBlank secret with
  | some text =>
    simp only [hs]
    refine resolve_of_secretToUse ?_
    simp only [secretToUse, bind, EStateM.bind, hsecret, hs]
    rfl
  | none =>
    simp only [hs]
    -- Only from here on is the source asked for the seed.
    have hderived : secretToUse ⟨.ok secret, seed⟩ {} =
        derivedSecret ⟨.ok secret, seed⟩ { asked := [.secret] } := by
      simp only [secretToUse, bind, EStateM.bind, hsecret, hs]
    obtain e | seed := seed
    · exact resolve_of_secretToUse_error (hderived.trans rfl)
    have hseed : ask ⟨.ok secret, .ok seed⟩ .seed { asked := [.secret] } =
        .ok seed { asked := [.secret, .seed] } :=
      ask_of_ok rfl { asked := [.secret] }
    cases ht : Text.nonBlank seed with
    | none =>
      simp only [ht]
      refine resolve_of_secretToUse_error (hderived.trans ?_)
      simp only [derivedSecret, bind, EStateM.bind, hseed, ht]
      rfl
    | some text =>
      simp only [ht]
      refine resolve_of_secretToUse (hderived.trans ?_)
      simp only [derivedSecret, bind, EStateM.bind, hseed, ht]
      rfl

/-- The secret decides an attempt if it cannot be told, or is there and is not blank. -/
def SecretDecides (answer : KeyAnswer) : Prop :=
  ∀ secret, answer.secret = .ok secret → ¬Text.Absent secret

/-- The seed is asked for only where the secret does not decide. -/
theorem asked_resolve (answer : KeyAnswer) :
    (answer.SecretDecides → answer.resolve.asked = [.secret]) ∧
      (¬answer.SecretDecides → answer.resolve.asked = [.secret, .seed]) := by
  obtain ⟨secret | secret, seed⟩ := answer
  · refine ⟨fun _ => rfl, fun h => absurd (fun _ hsecret => ?_) h⟩
    cases hsecret
  rw [resolve_eq]
  rcases Text.absent_or_not_blank secret with hsecret | ⟨text, rfl, htext⟩
  · simp only [Text.nonBlank_of_absent hsecret]
    refine ⟨fun h => absurd hsecret (h _ rfl), fun _ => ?_⟩
    cases seed with
    | error e => rfl
    | ok seed => cases ht : Text.nonBlank seed <;> simp only [ht]
  · simp only [Text.nonBlank_of_not_blank htext]
    refine ⟨fun _ => trivial, fun h => absurd (fun secret hsecret habsent => ?_) h⟩
    cases hsecret
    exact htext (habsent _ rfl)

/-- How an attempt ends, case by case. Where the secret decides, the seed may be anything. -/
inductive EndsIn : KeyAnswer → Except KeyError Key → Prop where
  /-- The secret cannot be told. -/
  | secretFails (e : KeyError) (seed : Except KeyError (Option String)) :
    EndsIn ⟨.error e, seed⟩ (.error e)
  /-- The secret makes a key as it stands. -/
  | secretFits {secret : String} {key : Key} (seed : Except KeyError (Option String))
      (hsecret : ¬Text.Blank secret) (hkey : key.bytes = Utf8.encode secret) :
    EndsIn ⟨.ok (some secret), seed⟩ (.ok key)
  /-- The secret has a size that no key has, and the seed is no way out. -/
  | secretMisfits {secret : String} (seed : Except KeyError (Option String))
      (hsecret : ¬Text.Blank secret) (h16 : (Utf8.encode secret).length ≠ 16)
      (h24 : (Utf8.encode secret).length ≠ 24) (h32 : (Utf8.encode secret).length ≠ 32) :
    EndsIn ⟨.ok (some secret), seed⟩ (.error (.invalidLength (Utf8.encode secret).length))
  /-- There is no secret, and the seed cannot be told. -/
  | seedFails {secret : Option String} (hsecret : Text.Absent secret) (e : KeyError) :
    EndsIn ⟨.ok secret, .error e⟩ (.error e)
  /-- There is neither a secret nor a seed. -/
  | missing {secret seed : Option String} (hsecret : Text.Absent secret)
      (hseed : Text.Absent seed) :
    EndsIn ⟨.ok secret, .ok seed⟩ (.error .missing)
  /-- There is no secret, but a seed to derive one from. -/
  | derived {secret : Option String} {seed : String} {key : Key} (hsecret : Text.Absent secret)
      (hseed : ¬Text.Blank seed) (hkey : key.bytes = Utf8.encode (Key.secretOfSeed seed)) :
    EndsIn ⟨.ok secret, .ok (some seed)⟩ (.ok key)

variable {answer : KeyAnswer} {r : Except KeyError Key}

theorem EndsIn.outcome_resolve (h : answer.EndsIn r) : answer.resolve.outcome = r := by
  rw [resolve_eq]
  cases h with
  | secretFails e seed => rfl
  | secretFits seed hsecret hkey =>
    simp only [Text.nonBlank_of_not_blank hsecret, Key.ofSecret_of_bytes hkey]
  | secretMisfits seed hsecret h16 h24 h32 =>
    simp only [Text.nonBlank_of_not_blank hsecret, Key.ofSecret_of_size h16 h24 h32]
  | seedFails hsecret e => simp only [Text.nonBlank_of_absent hsecret]
  | missing hsecret hseed =>
    simp only [Text.nonBlank_of_absent hsecret, Text.nonBlank_of_absent hseed]
  | derived hsecret hseed hkey =>
    simp only [Text.nonBlank_of_absent hsecret, Text.nonBlank_of_not_blank hseed,
      Key.ofSecret_of_bytes hkey]

/-- One of the rules applies to every answer. -/
theorem exists_endsIn (answer : KeyAnswer) : ∃ r, answer.EndsIn r := by
  obtain ⟨secret | secret, seed⟩ := answer
  · exact ⟨_, .secretFails secret seed⟩
  rcases Text.absent_or_not_blank secret with hsecret | ⟨s, rfl, hsecret⟩
  · obtain e | seed := seed
    · exact ⟨_, .seedFails hsecret e⟩
    rcases Text.absent_or_not_blank seed with hseed | ⟨t, rfl, hseed⟩
    · exact ⟨_, .missing hsecret hseed⟩
    · have hsized := Key.length_secretOfSeed t
      let key : Key := ⟨_, .inr (.inr hsized)⟩
      exact ⟨.ok key, .derived hsecret hseed rfl⟩
  · by_cases hsized : (Utf8.encode s).length = 16 ∨ (Utf8.encode s).length = 24 ∨
        (Utf8.encode s).length = 32
    · let key : Key := ⟨_, hsized⟩
      exact ⟨.ok key, .secretFits seed hsecret rfl⟩
    · rw [not_or, not_or] at hsized
      exact ⟨_, .secretMisfits seed hsecret hsized.1 hsized.2.1 hsized.2.2⟩

/-- The rules are what an attempt computes. -/
theorem endsIn_iff : answer.EndsIn r ↔ answer.resolve.outcome = r := by
  refine ⟨EndsIn.outcome_resolve, fun h => ?_⟩
  obtain ⟨r', hr'⟩ := exists_endsIn answer
  rwa [← h, hr'.outcome_resolve]

end KeyAnswer

/-! ## Many requests -/

namespace KeyProvider

/-- A provider whose source was never asked. -/
def unasked (source : KeySource) : KeyProvider := { source }

/-- The provider after so many requests for the key. -/
def afterRequests (p : KeyProvider) : Nat → KeyProvider
  | 0 => p
  | n + 1 => (p.afterRequests n).get.2

/-- The first attempts fail, so many of them. -/
def FailsFirst (source : KeySource) (n : Nat) : Prop :=
  ∀ i < n, ∃ e, (source i).resolve.outcome = .error e

variable {source : KeySource} {n : Nat} {k : Key}

theorem get_unresolved (source : KeySource) (n : Nat) :
    get ⟨source, n, none⟩ =
      ((source n).resolve, ⟨source, n + 1, (source n).resolve.outcome.toOption⟩) := by
  simp only [get]
  cases (source n).resolve.outcome <;> rfl

/-- Failed attempts leave nothing but their number. -/
theorem afterRequests_of_failsFirst (h : FailsFirst source n) :
    (unasked source).afterRequests n = ⟨source, n, none⟩ := by
  induction n with
  | zero => rfl
  | succ n ih =>
    obtain ⟨e, he⟩ := h n (Nat.lt_succ_self n)
    rw [afterRequests, ih fun i hi => h i (Nat.lt_succ_of_lt hi), get_unresolved, he]
    rfl

/-- If not all of the first attempts fail, one of them is the first that succeeds. -/
theorem exists_first_success (h : ¬FailsFirst source n) :
    ∃ m k, m < n ∧ FailsFirst source m ∧ (source m).resolve.outcome = .ok k := by
  induction n with
  | zero => exact absurd (fun i hi => absurd hi (Nat.not_lt_zero i)) h
  | succ n ih =>
    by_cases hfails : FailsFirst source n
    · cases hlast : (source n).resolve.outcome with
      | ok k => exact ⟨n, k, Nat.lt_succ_self n, hfails, hlast⟩
      | error e =>
        refine absurd (fun i hi => ?_) h
        rcases Nat.lt_succ_iff_lt_or_eq.1 hi with hi | rfl
        · exact hfails i hi
        · exact ⟨e, hlast⟩
    · obtain ⟨m, k, hm, hrest⟩ := ih hfails
      exact ⟨m, k, Nat.lt_succ_of_lt hm, hrest⟩

/-- After the first success nothing changes any more. -/
theorem afterRequests_of_settled (h : FailsFirst source n)
    (hok : (source n).resolve.outcome = .ok k) (m : Nat) :
    (unasked source).afterRequests (n + 1 + m) = ⟨source, n + 1, some k⟩ := by
  induction m with
  | zero =>
    rw [Nat.add_zero, afterRequests, afterRequests_of_failsFirst h, get_unresolved, hok]
    rfl
  | succ m ih =>
    rw [← Nat.add_assoc, afterRequests, ih, get_of_key rfl]

/-- After some requests the key is settled unless all attempts failed. -/
theorem isResolved_afterRequests (source : KeySource) (n : Nat) :
    ((unasked source).afterRequests n).isResolved = true ↔ ¬FailsFirst source n := by
  by_cases hfails : FailsFirst source n
  · rw [afterRequests_of_failsFirst hfails]
    exact ⟨fun h => (nomatch h), fun h => absurd hfails h⟩
  · obtain ⟨m, k, hm, hfirst, hok⟩ := exists_first_success hfails
    obtain ⟨d, rfl⟩ := Nat.exists_eq_add_of_le hm
    rw [afterRequests_of_settled hfirst hok]
    exact ⟨fun _ => hfails, fun _ => rfl⟩

end KeyProvider

end FieldVault

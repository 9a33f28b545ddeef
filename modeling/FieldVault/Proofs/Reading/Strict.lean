/-
What a strict vault serves, against what a lenient one serves from the same store.

The two read alike but for one kind of field: a token that stands in the field itself, with no live
shadow record beside it, and that cannot be opened. The strict vault fails over it, the lenient one
serves the token. Behind a live shadow record the setting is never looked at, so a failed
verification is a failure in both, and so is the want of a key there.

For a whole owner the second pass is the one that tells the vaults apart. The first lists the same
names in both, and the second lists none at all in a lenient vault.
-/
import FieldVault.Proofs.Reading.Agreement

set_option autoImplicit false

namespace FieldVault

open Vault

variable {r : Except KeyError Key} {ref : FieldRef} {v : Vault}

/-! ## One cell -/

/-- The failure is one to open a token: it is malformed, it does not decrypt, or there is no key. -/
def Error.isOfToken : Error → Bool
  | .malformedToken _ => true
  | .decryptionFailed _ => true
  | .key _ => true
  | _ => false

/-- Only a token can fail to reveal its text. -/
theorem isOfToken_of_reveal {value : String} {e : Error} (h : reveal r value = .error e) :
    Token.isMarked value = true ∧ e.isOfToken = true := by
  rw [reveal] at h
  by_cases hm : Token.isMarked value = true
  · rw [if_pos hm] at h
    refine ⟨hm, ?_⟩
    cases hp : Token.parse value with
    | error fault =>
      simp only [hp] at h
      rw [← Except.error.inj h]
      rfl
    | ok token =>
      simp only [hp] at h
      cases r with
      | error e' =>
        rw [← Except.error.inj h]
        rfl
      | ok k =>
        simp only [openToken] at h
        cases hu : k.unsealText token with
        | ok text => simp [hu, Except.mapError] at h
        | error fault =>
          rw [hu] at h
          rw [← Except.error.inj h]
          rfl
  · rw [if_neg hm] at h
    cases h

namespace Cell

/-- A token that stands in the field itself and cannot be opened: a strict read fails over it, and
any other serves it as it is. -/
structure Unopened (r : Except KeyError Key) (ref : FieldRef) (c : Cell) (token : String) :
    Prop where
  live : c.live? = none
  stored : c.stored = some token
  marked : Token.isMarked token = true
  strict : ∃ e, c.read true r ref = .error e ∧ e.isOfToken = true
  lenient : c.read false r ref = .ok (some token)

/-- Behind a live shadow record the setting of the vault makes no difference. -/
theorem read_strict_of_live {c : Cell} (h : c.live?.isSome = true) :
    c.read true r ref = c.read false r ref := by
  obtain ⟨shadow, hlive⟩ := Option.isSome_iff_exists.1 h
  rw [read_of_live hlive, read_of_live hlive]

/-- A lenient read can only fail behind a live shadow record. -/
theorem read_lenient_of_not_live (r : Except KeyError Key) (ref : FieldRef) {c : Cell}
    (h : c.live? = none) : ∃ value, c.read false r ref = .ok value := by
  rw [read_of_not_live h]
  cases c.stored with
  | none => exact ⟨none, rfl⟩
  | some value => exact ⟨_, rfl⟩

/-- Where a strict and a lenient read differ, a token stands that cannot be opened. -/
theorem unopened_or_alike (r : Except KeyError Key) (ref : FieldRef) (c : Cell) :
    (∃ token, c.Unopened r ref token) ∨ c.read true r ref = c.read false r ref := by
  cases hl : c.live? with
  | some shadow => exact .inr (read_strict_of_live (by rw [hl]; rfl))
  | none =>
    have htrue : c.read true r ref = storedText true r c.stored := read_of_not_live hl
    have hfalse : c.read false r ref = storedText false r c.stored := read_of_not_live hl
    cases hs : c.stored with
    | none =>
      refine .inr ?_
      rw [htrue, hfalse, hs]
      rfl
    | some value =>
      rw [hs, storedText] at htrue hfalse
      cases hr : reveal r value with
      | ok text =>
        refine .inr ?_
        rw [htrue, hfalse, hr]
        rfl
      | error e =>
        obtain ⟨hmarked, he⟩ := isOfToken_of_reveal hr
        rw [hr] at htrue hfalse
        exact .inl ⟨value, hl, hs, hmarked, ⟨e, htrue, he⟩, hfalse⟩

end Cell

/-! ## One owner -/

namespace Store

variable {s : Store} {owner : Owner}

theorem entry_of_unopened (ho : s.owner? owner.id = some owner) {field : FieldName}
    {token : String} (h : (s.cell owner.id field).Unopened r ref token) :
    owner.entry field = some (some token) := by
  have hstored := h.stored
  rw [Cell.stored, entry_cell ho] at hstored
  exact Option.join_eq_some_iff.1 hstored

/-- The fields that the second pass of a strict read withholds are the tokens that cannot be
opened. -/
theorem mem_withheld_iff_unopened (ho : s.owner? owner.id = some owner) {field : FieldName} :
    field ∈ (s.tokenNames owner).filter (s.isWithheld true r owner) ↔
      ∃ token, (s.cell owner.id field).Unopened r ⟨owner.tenant, owner.id, field⟩ token := by
  rw [mem_withheld_tokens_iff ho, Option.isSome_eq_false_iff, Option.isNone_iff_eq_none,
    isWithheld_iff]
  constructor
  · rintro ⟨hlive, e, he⟩
    refine (Cell.unopened_or_alike r _ _).resolve_right ?_
    intro hsame
    obtain ⟨value, hvalue⟩ :=
      Cell.read_lenient_of_not_live r ⟨owner.tenant, owner.id, field⟩ hlive
    rw [← hsame, he] at hvalue
    cases hvalue
  · rintro ⟨token, h⟩
    obtain ⟨e, he, -⟩ := h.strict
    exact ⟨h.live, e, he⟩

/-- The second pass of a lenient read withholds nothing. -/
theorem withheld_tokens_lenient (ho : s.owner? owner.id = some owner) :
    (s.tokenNames owner).filter (s.isWithheld false r owner) = [] := by
  rw [List.filter_eq_nil_iff]
  intro field hfield hwithheld
  obtain ⟨value, hvalue⟩ := Cell.read_lenient_of_not_live r
    ⟨owner.tenant, owner.id, field⟩ ((mem_tokenNames_iff ho).1 hfield).1
  obtain ⟨e, he⟩ := isWithheld_iff.1 hwithheld
  rw [hvalue] at he
  cases he

end Store

/-- The strict reading lists some more fields as unreadable, behind those that the lenient one
lists. The records differ in these fields and nowhere else: each of them holds a token in the store,
which the lenient record shows and the strict one does not. -/
structure Reading.Stricter (owner : Owner) (strict lenient : Reading) (tokens : List FieldName) :
    Prop where
  unreadable : strict.unreadable = lenient.unreadable ++ tokens
  id : strict.owner.id = lenient.owner.id
  tenant : strict.owner.tenant = lenient.owner.tenant
  serviceAccount : strict.owner.serviceAccount = lenient.owner.serviceAccount
  differs : ∀ field, strict.owner.entry field ≠ lenient.owner.entry field ↔ field ∈ tokens
  withheld : ∀ field ∈ tokens, ∃ token, owner.value field = some token ∧
    Token.isMarked token = true ∧ strict.owner.entry field = some none ∧
    lenient.owner.entry field = some (some token)

theorem Store.reading_stricter {s : Store} {owner : Owner}
    (ho : s.owner? owner.id = some owner) :
    Reading.Stricter owner (s.reading true r owner) (s.reading false r owner)
      ((s.tokenNames owner).filter (s.isWithheld true r owner)) := by
  obtain ⟨hid, htenant, hservice⟩ := head_reading s true r owner
  obtain ⟨hid', htenant', hservice'⟩ := head_reading s false r owner
  have hwithheld : ∀ field token,
      (s.cell owner.id field).Unopened r ⟨owner.tenant, owner.id, field⟩ token →
        (s.reading true r owner).owner.entry field = some none ∧
        (s.reading false r owner).owner.entry field = some (some token) := by
    intro field token h
    obtain ⟨e, he, -⟩ := h.strict
    rw [entry_reading ho, entry_reading ho, entry_of_unopened ho h, he, h.lenient]
    exact ⟨rfl, rfl⟩
  refine ⟨?_, hid.trans hid'.symm, htenant.trans htenant'.symm, hservice.trans hservice'.symm,
    ?_, ?_⟩
  · rw [unreadable_reading, unreadable_reading, withheld_tokens_lenient ho, List.append_nil]
    congr 1
    -- In the first pass every field has a live shadow record.
    refine List.filter_congr ?_
    intro field hfield
    rw [isWithheld, isWithheld, Cell.read_strict_of_live ((mem_liveNames_iff ho).1 hfield)]
  · intro field
    rw [mem_withheld_iff_unopened ho]
    constructor
    · intro hdiffers
      refine (Cell.unopened_or_alike r _ _).resolve_right ?_
      intro hsame
      rw [entry_reading ho, entry_reading ho, hsame] at hdiffers
      exact hdiffers rfl
    · rintro ⟨token, h⟩
      obtain ⟨hstrict, hlenient⟩ := hwithheld field token h
      rw [hstrict, hlenient]
      simp
  · intro field hfield
    obtain ⟨token, h⟩ := (mem_withheld_iff_unopened ho).1 hfield
    refine ⟨token, ?_, h.marked, hwithheld field token h⟩
    rw [Owner.value_eq_join, entry_of_unopened ho h]
    rfl

/-! ## The two readings -/

namespace Work

/-- **Strict reading puts failures in the place of tokens and changes nothing else**, whether a key
is at hand or the provider always fails in one way. A field behind a live shadow record reads alike
in a strict and in a lenient vault. Any other field that a strict vault serves, a lenient one serves
alike; and where the strict one fails, the failure is one to open a token, the stored value is
marked as one, and the lenient vault serves it as it stands. An owner that can be read in a strict
vault can be read in a lenient one. The strict vault then lists the same unreadable fields first,
and after them exactly the fields in which the two records differ, each empty in the strict record
and a stored token in the lenient one. -/
theorem strict_differs_in_tokens (h : v.Calm r) {id : OwnerId} {owner : Owner}
    (ho : v.store.owner? id = some owner) :
    (∀ field,
      ((v.store.cell id field).live?.isSome = true →
        answer (loadField id field) { v with strict := true } =
          answer (loadField id field) { v with strict := false }) ∧
      ((v.store.cell id field).live? = none →
        (∀ value, answer (loadField id field) { v with strict := true } = .ok value →
          answer (loadField id field) { v with strict := false } = .ok value) ∧
        ∀ e, answer (loadField id field) { v with strict := true } = .error e →
          e.isOfToken = true ∧ ∃ token, owner.value field = some token ∧
            Token.isMarked token = true ∧
            answer (loadField id field) { v with strict := false } = .ok (some token))) ∧
    ∀ strict, answer (loadOwnerPlain id) { v with strict := true } = .ok strict →
      ∃ lenient tokens, answer (loadOwnerPlain id) { v with strict := false } = .ok lenient ∧
        Reading.Stricter owner strict lenient tokens := by
  have hid := Store.id_of_owner? ho
  subst hid
  have htrue : ∀ field, answer (loadField owner.id field) { v with strict := true } =
      (v.store.cell owner.id field).read true r ⟨owner.tenant, owner.id, field⟩ :=
    fun field => (loadField_reads (h.with_strict true) ho field).answer
  have hfalse : ∀ field, answer (loadField owner.id field) { v with strict := false } =
      (v.store.cell owner.id field).read false r ⟨owner.tenant, owner.id, field⟩ :=
    fun field => (loadField_reads (h.with_strict false) ho field).answer
  refine ⟨?_, ?_⟩
  · intro field
    rw [htrue, hfalse]
    refine ⟨Cell.read_strict_of_live, ?_⟩
    intro hlive
    rcases Cell.unopened_or_alike r ⟨owner.tenant, owner.id, field⟩
      (v.store.cell owner.id field) with ⟨token, hu⟩ | hsame
    · obtain ⟨e, he, htoken⟩ := hu.strict
      rw [he, hu.lenient]
      refine ⟨fun value hvalue => (by cases hvalue), ?_⟩
      intro e' he'
      cases he'
      refine ⟨htoken, token, ?_, hu.marked, rfl⟩
      rw [Owner.value_eq_join, Store.entry_of_unopened ho hu]
      rfl
    · obtain ⟨value, hvalue⟩ :=
        Cell.read_lenient_of_not_live r ⟨owner.tenant, owner.id, field⟩ hlive
      rw [hsame, hvalue]
      exact ⟨fun _ hv => hv, fun _ he => (by cases he)⟩
  · intro strict hstrict
    rcases loadOwnerPlain_cases (h.with_strict true) ho with ⟨e, field, howner, -⟩ | ⟨hkey, howner⟩
    · rw [howner] at hstrict
      cases hstrict
    · rw [howner] at hstrict
      cases hstrict
      rcases loadOwnerPlain_cases (h.with_strict false) ho with
        ⟨e, field, -, hfield⟩ | ⟨-, hlenient⟩
      · -- A lenient read that fails for want of a key fails so in a strict vault.
        rcases Cell.unopened_or_alike r ⟨owner.tenant, owner.id, field⟩
          (v.store.cell owner.id field) with ⟨token, hu⟩ | hsame
        · rw [hu.lenient] at hfield
          cases hfield
        · exact absurd (hsame.trans hfield) (hkey field e)
      · exact ⟨_, _, hlenient, Store.reading_stricter ho⟩

/-- A value that is marked and no token is served by the lenient vault only. -/
theorem strict_differs_in_tokens_alice :
    let k : Key := ⟨List.replicate 16 7, .inl rfl⟩
    let alice : Owner := ⟨"alice", "acme", false, Registry.empty.file ⟨"email", some "$$$"⟩⟩
    let v : Vault := settled k (({} : Store).putOwner alice) .none
    answer (loadField "alice" "email") { v with strict := false } = .ok (some "$$$") ∧
      ∃ strict lenient, answer (loadOwnerPlain "alice") { v with strict := true } = .ok strict ∧
        answer (loadOwnerPlain "alice") { v with strict := false } = .ok lenient ∧
        Reading.Stricter alice strict lenient ["email"] := by
  intro k alice v
  have ho : v.store.owner? "alice" = some alice := Store.owner?_putOwner_self {} alice
  obtain ⟨hfields, howner⟩ := strict_differs_in_tokens (calm_settled k _ _) ho
  have hfails : answer (loadField "alice" "email") { v with strict := true } =
      .error (.malformedToken (Token.Fault.tooShort 0).message) := rfl
  obtain ⟨-, token, hvalue, -, hlenient⟩ := ((hfields "email").2 rfl).2 _ hfails
  cases hvalue
  obtain ⟨lenient, tokens, hread, hstricter⟩ := howner _ rfl
  have hlists := hstricter.unreadable
  cases hread
  cases hlists
  exact ⟨hlenient, _, _, rfl, rfl, hstricter⟩

end Work

end FieldVault

/-
Base64 is canonical: reading undoes writing, and whatever can be read was written.

A group of three bytes and its four sextets determine each other, and so do a sextet and the byte
that writes it. What is left is the last group. Its readable forms are listed once, by
`eq_append_of_lastSextets`: some symbols and then nothing but padding. The counts of the two, and
the bits of the last sextet that no byte uses, leave exactly the three forms that are written for a
tail of one, two or three bytes.
-/
import FieldVault.Proofs.Bytes
import FieldVault.Text.Base64
import Mathlib.Tactic.SplitIfs

set_option autoImplicit false

namespace FieldVault.Base64

/-! ## Symbols -/

/-- A symbol is read as its sextet. -/
theorem sextet?_symbol : ∀ s : Sextet, sextet? (symbol s) = some s := by
  decide

theorem symbol_ne_padByte : ∀ s : Sextet, symbol s ≠ padByte := by
  decide

/-- A byte that is read as a sextet is its symbol. -/
theorem symbol_of_sextet? {b : UInt8} : ∀ {s : Sextet}, sextet? b = some s → symbol s = b := by
  have h : ∀ b : UInt8, (sextet? b).all (symbol · == b) := forall_byte (by decide +kernel)
  intro s hs
  have hb := h b
  rw [hs] at hb
  exact eq_of_beq hb

theorem sextetAt_symbol (offset : Nat) (s : Sextet) : sextetAt offset (symbol s) = .ok s := by
  rw [sextetAt, sextet?_symbol]

theorem eq_symbol_of_sextetAt {offset : Nat} {b : UInt8} {s : Sextet}
    (h : sextetAt offset b = .ok s) : b = symbol s := by
  rw [sextetAt] at h
  split at h
  · case h_1 t ht =>
    cases h
    exact (symbol_of_sextet? ht).symm
  · cases h

/-! ## Groups of three bytes and four sextets -/

theorem byte0_sextets (a b : UInt8) : byte0 (sextet0 a) (sextet1 a b) = a := by
  have ha := a.toNat_lt
  have hb := b.toNat_lt
  rw [← UInt8.toNat_inj, byte0, UInt8.toNat_ofNat']
  simp only [sextet0, sextet1, Fin.val_ofNat]
  omega

theorem byte1_sextets (a b c : UInt8) : byte1 (sextet1 a b) (sextet2 b c) = b := by
  have hb := b.toNat_lt
  have hc := c.toNat_lt
  rw [← UInt8.toNat_inj, byte1, UInt8.toNat_ofNat']
  simp only [sextet1, sextet2, Fin.val_ofNat]
  omega

theorem byte2_sextets (b c : UInt8) : byte2 (sextet2 b c) (sextet3 c) = c := by
  have hc := c.toNat_lt
  rw [← UInt8.toNat_inj, byte2, UInt8.toNat_ofNat']
  simp only [sextet2, sextet3, Fin.val_ofNat]
  omega

theorem sextet0_bytes (s t : Sextet) : sextet0 (byte0 s t) = s := by
  apply Fin.ext
  simp only [sextet0, byte0, Fin.val_ofNat, UInt8.toNat_ofNat']
  omega

theorem sextet1_bytes (s t u : Sextet) : sextet1 (byte0 s t) (byte1 t u) = t := by
  apply Fin.ext
  simp only [sextet1, byte0, byte1, Fin.val_ofNat, UInt8.toNat_ofNat']
  omega

theorem sextet2_bytes (t u v : Sextet) : sextet2 (byte1 t u) (byte2 u v) = u := by
  apply Fin.ext
  simp only [sextet2, byte1, byte2, Fin.val_ofNat, UInt8.toNat_ofNat']
  omega

theorem sextet3_bytes (u v : Sextet) : sextet3 (byte2 u v) = v := by
  apply Fin.ext
  simp only [sextet3, byte2, Fin.val_ofNat, UInt8.toNat_ofNat']
  omega

/-- The second sextet of a tail of one byte has its low bits clear, and is read back only if it
has. -/
theorem sextet1_zero (s t : Sextet) (h : t.val % 16 = 0) : sextet1 (byte0 s t) 0 = t := by
  apply Fin.ext
  simp only [sextet1, byte0, Fin.val_ofNat, UInt8.toNat_ofNat', UInt8.toNat_zero]
  omega

/-- The third sextet of a tail of two bytes has its low bits clear, and is read back only if it
has. -/
theorem sextet2_zero (t u : Sextet) (h : u.val % 4 = 0) : sextet2 (byte1 t u) 0 = u := by
  apply Fin.ext
  simp only [sextet2, byte1, Fin.val_ofNat, UInt8.toNat_ofNat', UInt8.toNat_zero]
  omega

theorem sextet1_zero_mod (a : UInt8) : (sextet1 a 0).val % 16 = 0 := by
  simp only [sextet1, Fin.val_ofNat, UInt8.toNat_zero]
  omega

theorem sextet2_zero_mod (b : UInt8) : (sextet2 b 0).val % 4 = 0 := by
  simp only [sextet2, Fin.val_ofNat, UInt8.toNat_zero]
  omega

/-! ## The last group -/

/-- The readable forms of padding: nothing but padding. -/
theorem eq_replicate_of_paddingFrom {pad n : Nat} {bs : Bytes} (h : paddingFrom pad bs = .ok n) :
    bs = List.replicate n padByte := by
  induction bs generalizing n with
  | nil =>
    cases h
    rfl
  | cons b bs ih =>
    rw [paddingFrom] at h
    split_ifs at h with hb
    cases hp : paddingFrom pad bs with
    | error fault => simp [hp, Except.map] at h
    | ok m =>
      simp only [hp, Except.map, Except.ok.injEq] at h
      rw [← h, List.replicate_succ, hb, ih hp]

theorem paddingFrom_replicate (pad n : Nat) :
    paddingFrom pad (List.replicate n padByte) = .ok n := by
  induction n with
  | zero => rfl
  | succ n ih =>
    rw [List.replicate_succ, paddingFrom, if_pos rfl, ih]
    rfl

/-- The readable forms of the last group: symbols, and then nothing but padding. -/
theorem eq_append_of_lastSextets {offset place : Nat} {bs : Bytes} {ss : List Sextet} {n : Nat}
    (h : lastSextets offset place bs = .ok (ss, n)) :
    bs = ss.map symbol ++ List.replicate n padByte := by
  induction bs generalizing offset place ss n with
  | nil =>
    cases h
    rfl
  | cons b bs ih =>
    rw [lastSextets] at h
    split_ifs at h with hb hp
    · cases hr : paddingFrom offset bs with
      | error fault => simp [hr, Except.map] at h
      | ok m =>
        simp only [hr, Except.map, Except.ok.injEq, Prod.mk.injEq] at h
        obtain ⟨rfl, rfl⟩ := h
        rw [hb, eq_replicate_of_paddingFrom hr, List.map_nil, List.nil_append,
          List.replicate_succ]
    · cases hs : sextetAt offset b with
      | error fault => simp [hs, bind, Except.bind] at h
      | ok s =>
        cases hr : lastSextets (offset + 1) (place + 1) bs with
        | error fault => simp [hs, hr, bind, Except.bind] at h
        | ok r =>
          simp only [hs, hr, bind, Except.bind, pure, Except.pure, Except.ok.injEq,
            Prod.mk.injEq] at h
          obtain ⟨rfl, rfl⟩ := h
          rw [List.map_cons, List.cons_append, ← eq_symbol_of_sextetAt hs, ← ih hr]

/-- Symbols and padding are read as such, unless the padding begins before the third place. -/
theorem lastSextets_append (offset place : Nat) (ss : List Sextet) (n : Nat)
    (h : n = 0 ∨ 2 ≤ place + ss.length) :
    lastSextets offset place (ss.map symbol ++ List.replicate n padByte) = .ok (ss, n) := by
  induction ss generalizing offset place with
  | nil =>
    cases n with
    | zero => rfl
    | succ n =>
      have hp : ¬place < 2 := by simp at h; omega
      rw [List.map_nil, List.nil_append, List.replicate_succ, lastSextets, if_pos rfl,
        if_neg hp, paddingFrom_replicate]
      rfl
  | cons s ss ih =>
    have ih := ih (offset + 1) (place + 1) (by simp only [List.length_cons] at h; omega)
    rw [List.map_cons, List.cons_append, lastSextets, if_neg (symbol_ne_padByte s),
      sextetAt_symbol]
    simp [bind, Except.bind, pure, Except.pure, ih]

/-- A last group is read only if it is what is written for a tail of one to three bytes. -/
theorem eq_encode_of_decodeLast {offset : Nat} {bs out : Bytes}
    (h : decodeLast offset bs = .ok out) : bs = encode out := by
  rw [decodeLast] at h
  cases hr : lastSextets offset 0 bs with
  | error fault => simp [hr, bind, Except.bind] at h
  | ok r =>
    obtain ⟨ss, n⟩ := r
    have hbs := eq_append_of_lastSextets hr
    simp only [hr, bind, Except.bind] at h
    split_ifs at h with hlength hpads
    simp only [pure, Except.pure] at h
    split at h
    · case h_1 s t =>
      split_ifs at h with ht
      cases h
      have hn : n = 2 := by simp at hpads; omega
      rw [hbs, hn, encode, sextet0_bytes, sextet1_zero s t ht]
      rfl
    · case h_2 s t u =>
      split_ifs at h with hu
      cases h
      have hn : n = 1 := by simp at hpads; omega
      rw [hbs, hn, encode, sextet0_bytes, sextet1_bytes, sextet2_zero t u hu]
      rfl
    · case h_3 s t u v =>
      cases h
      have hn : n = 0 := by simp at hpads; omega
      rw [hbs, hn, encode, encode, sextet0_bytes, sextet1_bytes, sextet2_bytes, sextet3_bytes]
      rfl
    · cases h

/-- What is written for a tail of one to three bytes is read as that tail. -/
theorem decodeLast_encode (offset : Nat) (bs : Bytes) (h : bs ≠ []) (h3 : bs.length ≤ 3) :
    decodeLast offset (encode bs) = .ok bs := by
  match bs with
  | [] => exact absurd rfl h
  | [a] =>
    have hr : lastSextets offset 0 (encode [a]) = .ok ([sextet0 a, sextet1 a 0], 2) :=
      lastSextets_append offset 0 [sextet0 a, sextet1 a 0] 2 (.inr (by simp))
    rw [decodeLast, hr]
    simp [bind, Except.bind, pure, Except.pure, sextet1_zero_mod, byte0_sextets]
  | [a, b] =>
    have hr : lastSextets offset 0 (encode [a, b]) =
        .ok ([sextet0 a, sextet1 a b, sextet2 b 0], 1) :=
      lastSextets_append offset 0 [sextet0 a, sextet1 a b, sextet2 b 0] 1 (.inr (by simp))
    rw [decodeLast, hr]
    simp [bind, Except.bind, pure, Except.pure, sextet2_zero_mod, byte0_sextets, byte1_sextets]
  | [a, b, c] =>
    have hr : lastSextets offset 0 (encode [a, b, c]) =
        .ok ([sextet0 a, sextet1 a b, sextet2 b c, sextet3 c], 0) :=
      lastSextets_append offset 0 [sextet0 a, sextet1 a b, sextet2 b c, sextet3 c] 0 (.inl rfl)
    rw [decodeLast, hr]
    simp [bind, Except.bind, pure, Except.pure, byte0_sextets, byte1_sextets, byte2_sextets]
  | _ :: _ :: _ :: _ :: _ =>
    simp only [List.length_cons] at h3
    omega

/-! ## All groups -/

/-- The groups that are written are read, whatever the place they start at. -/
theorem decodeFrom_encode (offset : Nat) (bs : Bytes) : decodeFrom offset (encode bs) = .ok bs := by
  fun_induction encode bs generalizing offset
  case case1 => rfl
  case case2 a => exact decodeLast_encode offset [a] (by simp) (by simp)
  case case3 a b => exact decodeLast_encode offset [a, b] (by simp) (by simp)
  case case4 a b c rest ih =>
    cases hr : encode rest with
    | nil =>
      -- nothing is written for the rest, so this group is the last
      have hrest : rest = [] := by
        have hd := ih 0
        rw [hr] at hd
        exact (Except.ok.inj hd).symm
      rw [hrest]
      exact decodeLast_encode offset [a, b, c] (by simp) (by simp)
    | cons b4 tail =>
      have ih := ih (offset + 4)
      rw [hr] at ih
      rw [decodeFrom]
      simp [sextetAt_symbol, bind, Except.bind, pure, Except.pure, ih, byte0_sextets,
        byte1_sextets, byte2_sextets]

/-- Groups that are read are those that are written for the bytes they give. -/
theorem eq_encode_of_decodeFrom {offset : Nat} {bs out : Bytes}
    (h : decodeFrom offset bs = .ok out) : bs = encode out := by
  fun_induction decodeFrom offset bs generalizing out
  case case1 =>
    cases h
    rfl
  case case2 offset b0 b1 b2 b3 b4 rest ih =>
    cases h0 : sextetAt offset b0 with
    | error fault => simp [h0, bind, Except.bind] at h
    | ok s =>
    cases h1 : sextetAt (offset + 1) b1 with
    | error fault => simp [h0, h1, bind, Except.bind] at h
    | ok t =>
    cases h2 : sextetAt (offset + 2) b2 with
    | error fault => simp [h0, h1, h2, bind, Except.bind] at h
    | ok u =>
    cases h3 : sextetAt (offset + 3) b3 with
    | error fault => simp [h0, h1, h2, h3, bind, Except.bind] at h
    | ok v =>
    cases hr : decodeFrom (offset + 4) (b4 :: rest) with
    | error fault => simp [h0, h1, h2, h3, hr, bind, Except.bind] at h
    | ok bytes =>
      simp only [h0, h1, h2, h3, hr, bind, Except.bind, pure, Except.pure, Except.ok.injEq] at h
      rw [← h, encode, sextet0_bytes, sextet1_bytes, sextet2_bytes, sextet3_bytes, ← ih hr,
        eq_symbol_of_sextetAt h0, eq_symbol_of_sextetAt h1, eq_symbol_of_sextetAt h2,
        eq_symbol_of_sextetAt h3]
  case case3 => exact eq_encode_of_decodeLast h

/-! ## Whole texts -/

/-- A written form is a whole number of groups of four, so no byte stands alone in its group. -/
theorem length_encode_mod (bs : Bytes) : (encode bs).length % 4 = 0 := by
  fun_induction encode bs
  case case4 a b c rest ih =>
    simp only [List.length_cons]
    omega
  all_goals simp

/-- The written form is no shorter than the bytes. -/
theorem length_le_length_encode (bs : Bytes) : bs.length ≤ (encode bs).length := by
  fun_induction encode bs
  case case4 a b c rest ih =>
    simp only [List.length_cons]
    omega
  all_goals simp

/-- What is written is read. -/
theorem decode_encode (bs : Bytes) : decode (encode bs) = .ok bs := by
  have h : loneIntruder? (encode bs) = none := by
    rw [loneIntruder?, if_neg (by rw [length_encode_mod]; decide)]
  rw [decode, h]
  exact decodeFrom_encode 0 bs

/-- What can be read at all is what is written for the bytes it gives. -/
theorem eq_encode_of_decode {bs out : Bytes} (h : decode bs = .ok out) : bs = encode out := by
  rw [decode] at h
  split at h
  · cases h
  · exact eq_encode_of_decodeFrom h

/-- The written form consists of symbols and padding, which are ASCII. -/
theorem lt_of_mem_encode {bs : Bytes} {b : UInt8} (h : b ∈ encode bs) : b.toNat < 128 := by
  have hsymbol : ∀ s : Sextet, (symbol s).toNat < 128 := by decide
  have hpad : padByte.toNat < 128 := by decide
  fun_induction encode bs
  case case1 => cases h
  case case2 | case3 =>
    simp only [List.mem_cons, List.not_mem_nil, or_false] at h
    rcases h with rfl | rfl | rfl | rfl <;> first | exact hsymbol _ | exact hpad
  case case4 ih =>
    simp only [List.mem_cons] at h
    rcases h with rfl | rfl | rfl | rfl | h <;> first | exact hsymbol _ | exact ih h

end FieldVault.Base64

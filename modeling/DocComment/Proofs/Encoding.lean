import DocComment.Text.Utf8
import Mathlib.Data.List.Basic

/-! UTF-8 is read as it is written: the bytes that are a text are those that its characters are
written with (`decode_eq_ok_iff`). The reader looks at one byte after the other; the bytes that it
takes for one character are `Spelled`, and they are the ones of a character
(`utf8EncodeChar_eq_cons_iff`). -/

namespace DocComment

theorem map_eq_ok {ε α β : Type} {x : Except ε α} {f : α → β} {b : β} :
    x.map f = .ok b ↔ ∃ a, x = .ok a ∧ b = f a := by
  cases x <;> simp [Except.map, eq_comm]

namespace Text.Utf8

def encode (cs : List Char) : List UInt8 := cs.flatMap String.utf8EncodeChar

/-- The code of a character half read, with the bits of the bytes that come next. -/
def codeOf (bits : Nat) (tail : List UInt8) : Nat :=
  tail.foldl (fun v b => v * 64 + b.toNat % 64) bits

def Continues (tail : List UInt8) : Prop := ∀ u ∈ tail, 0x80 ≤ u ∧ u ≤ 0xBF

/-- What a reader takes for one character: a lead byte, and as many more as it asks for. -/
def Spelled (b : UInt8) : List UInt8 → Prop
  | [] => ∃ low high, lead b = some (0, low, high)
  | t :: tail =>
    (∃ low high, lead b = some (tail.length + 1, low, high) ∧ low ≤ t ∧ t ≤ high) ∧ Continues tail

section decodeFrom
variable {b : UInt8} {bytes : List UInt8} {cs : List Char} {n position : Nat}

/-- A character half read is ended by the next bytes, if they belong to it. -/
theorem decodeFrom_half_eq_ok {p : HalfRead} (hp : p.missing = n + 1) :
    decodeFrom position (some p) bytes = .ok cs ↔ ∃ t tail r cs', tail.length = n ∧
      bytes = t :: (tail ++ r) ∧ (p.low ≤ t ∧ t ≤ p.high) ∧ Continues tail ∧
      cs = Char.ofNat (codeOf p.bits (t :: tail)) :: cs' ∧
      decodeFrom (position + (n + 1)) none r = .ok cs' := by
  induction n generalizing p position bytes with
  | zero =>
    constructor
    · intro h
      cases bytes with
      | nil => cases h
      | cons t r =>
        simp only [decodeFrom, hp] at h
        split at h
        next ht =>
          obtain ⟨cs', hr, rfl⟩ := map_eq_ok.1 h
          exact ⟨t, [], r, cs', rfl, rfl, ht, List.forall_mem_nil _, rfl, hr⟩
        next => cases h
    · rintro ⟨t, tail, r, cs', hlen, rfl, ht, -, rfl, hr⟩
      cases List.length_eq_zero_iff.1 hlen
      simp only [List.nil_append, decodeFrom, hp, if_pos ht]
      exact map_eq_ok.2 ⟨cs', hr, rfl⟩
  | succ n ih =>
    have hmore : ¬ n + 1 + 1 ≤ 1 := by omega
    have hplace : position + 1 + (n + 1) = position + (n + 1 + 1) := by omega
    constructor
    · intro h
      cases bytes with
      | nil => cases h
      | cons t r =>
        simp only [decodeFrom, hp, if_neg hmore] at h
        split at h
        next ht =>
          obtain ⟨u, tail, r, cs', hlen, rfl, hu, htail, rfl, hr⟩ := (ih rfl).1 h
          exact ⟨t, u :: tail, r, cs', congrArg Nat.succ hlen, rfl, ht,
            List.forall_mem_cons.2 ⟨hu, htail⟩, rfl, hplace ▸ hr⟩
        next => cases h
    · rintro ⟨t, tail, r, cs', hlen, rfl, ht, htail, rfl, hr⟩
      cases tail with
      | nil => cases hlen
      | cons u tail =>
        obtain ⟨hu, htail⟩ := List.forall_mem_cons.1 htail
        simp only [decodeFrom, hp, if_pos ht, if_neg hmore]
        exact (ih rfl).2 ⟨u, tail, r, cs', Nat.succ.inj hlen, rfl, hu, htail, rfl, hplace ▸ hr⟩

theorem decodeFrom_cons_eq_ok : decodeFrom position none (b :: bytes) = .ok cs ↔
    ∃ tail r cs', Spelled b tail ∧ bytes = tail ++ r ∧
      cs = Char.ofNat (codeOf (leadBits b tail.length) tail) :: cs' ∧
      decodeFrom (position + (tail.length + 1)) none r = .ok cs' := by
  have hplace : ∀ n, position + 1 + (n + 1) = position + (n + 1 + 1) := by omega
  constructor
  · intro h
    cases hlead : lead b with
    | none =>
      simp only [decodeFrom, hlead] at h
      cases h
    | some found =>
      obtain ⟨n, low, high⟩ := found
      cases n with
      | zero =>
        simp only [decodeFrom, hlead] at h
        obtain ⟨cs', hr, rfl⟩ := map_eq_ok.1 h
        exact ⟨[], bytes, cs', ⟨low, high, hlead⟩, rfl, rfl, hr⟩
      | succ n =>
        simp only [decodeFrom, hlead] at h
        obtain ⟨t, tail, r, cs', rfl, rfl, ht, htail, rfl, hr⟩ := (decodeFrom_half_eq_ok rfl).1 h
        exact ⟨t :: tail, r, cs', ⟨⟨low, high, hlead, ht⟩, htail⟩, rfl, rfl,
          hplace tail.length ▸ hr⟩
  · rintro ⟨tail, r, cs', hspell, rfl, rfl, hr⟩
    cases tail with
    | nil =>
      obtain ⟨low, high, hlead⟩ := hspell
      simp only [List.nil_append, decodeFrom, hlead]
      exact map_eq_ok.2 ⟨cs', hr, rfl⟩
    | cons t tail =>
      obtain ⟨⟨low, high, hlead, ht⟩, htail⟩ := hspell
      simp only [decodeFrom, hlead]
      exact (decodeFrom_half_eq_ok rfl).2
        ⟨t, tail, r, cs', rfl, rfl, ht, htail, rfl, hplace tail.length ▸ hr⟩

end decodeFrom

section Spelled
variable {b t u w : UInt8} {tail : List UInt8} {n : Nat}

/-- How many bytes a lead byte asks for, and which one may come next. Two bytes write no code that
one can write; neither do three one that two can, nor four one that three can, and none writes half
of a surrogate pair or goes beyond the last character. -/
theorem leads_iff : (∃ low high, lead b = some (n, low, high) ∧ low ≤ t ∧ t ≤ high) ↔
    (n = 0 ∧ b.toNat < 0x80 ∨ n = 1 ∧ 0xC2 ≤ b.toNat ∧ b.toNat < 0xE0 ∨
      n = 2 ∧ 0xE0 ≤ b.toNat ∧ b.toNat < 0xF0 ∨ n = 3 ∧ 0xF0 ≤ b.toNat ∧ b.toNat ≤ 0xF4) ∧
    (0x80 ≤ t.toNat ∧ t.toNat ≤ 0xBF) ∧ (b.toNat = 0xE0 → 0xA0 ≤ t.toNat) ∧
    (b.toNat = 0xED → t.toNat ≤ 0x9F) ∧ (b.toNat = 0xF0 → 0x90 ≤ t.toNat) ∧
    (b.toNat = 0xF4 → t.toNat ≤ 0x8F) := by
  fun_cases lead b
  all_goals
    simp only [UInt8.lt_iff_toNat_lt, ← UInt8.toNat_inj, UInt8.reduceToNat] at *
    simp [UInt8.le_iff_toNat_le]
    omega

theorem continues_iff : Continues tail ↔ ∀ u ∈ tail, 0x80 ≤ u.toNat ∧ u.toNat ≤ 0xBF := by
  simp only [Continues, UInt8.le_iff_toNat_le, UInt8.reduceToNat]

theorem spelled_one_iff : Spelled b [] ↔ b.toNat < 0x80 := by
  rw [Spelled]
  constructor
  · rintro ⟨low, high, h⟩
    revert h
    fun_cases lead b
    · exact fun _ => UInt8.lt_iff_toNat_lt.1 ‹_›
    all_goals exact fun h => by cases h
  · intro h
    exact ⟨_, _, if_pos (UInt8.lt_iff_toNat_lt.2 h)⟩

theorem spelled_two_iff : Spelled b [t] ↔
    (0xC2 ≤ b.toNat ∧ b.toNat < 0xE0) ∧ 0x80 ≤ t.toNat ∧ t.toNat ≤ 0xBF := by
  rw [Spelled, leads_iff, continues_iff, List.length_nil]
  simp only [List.not_mem_nil, false_implies, implies_true, true_and, and_true]
  omega

theorem spelled_three_iff : Spelled b [t, u] ↔ (0xE0 ≤ b.toNat ∧ b.toNat < 0xF0) ∧
    (0x80 ≤ t.toNat ∧ t.toNat ≤ 0xBF) ∧ (0x80 ≤ u.toNat ∧ u.toNat ≤ 0xBF) ∧
    (b.toNat = 0xE0 → 0xA0 ≤ t.toNat) ∧ (b.toNat = 0xED → t.toNat ≤ 0x9F) := by
  rw [Spelled, leads_iff, continues_iff, List.length_singleton, List.forall_mem_singleton]
  omega

theorem spelled_four_iff : Spelled b [t, u, w] ↔ (0xF0 ≤ b.toNat ∧ b.toNat ≤ 0xF4) ∧
    (0x80 ≤ t.toNat ∧ t.toNat ≤ 0xBF) ∧ (0x80 ≤ u.toNat ∧ u.toNat ≤ 0xBF) ∧
    (0x80 ≤ w.toNat ∧ w.toNat ≤ 0xBF) ∧
    (b.toNat = 0xF0 → 0x90 ≤ t.toNat) ∧ (b.toNat = 0xF4 → t.toNat ≤ 0x8F) := by
  rw [Spelled, leads_iff, continues_iff, List.length_cons, List.length_singleton,
    List.forall_mem_cons, List.forall_mem_singleton]
  omega

theorem codeOf_one : codeOf (leadBits b 0) [] = b.toNat := rfl

theorem codeOf_two : codeOf (leadBits b 1) [t] = b.toNat % 32 * 64 + t.toNat % 64 := rfl

theorem codeOf_three : codeOf (leadBits b 2) [t, u] =
    (b.toNat % 16 * 64 + t.toNat % 64) * 64 + u.toNat % 64 := rfl

theorem codeOf_four : codeOf (leadBits b 3) [t, u, w] =
    ((b.toNat % 8 * 64 + t.toNat % 64) * 64 + u.toNat % 64) * 64 + w.toNat % 64 := rfl

theorem Spelled.length_le (h : Spelled b tail) : tail.length ≤ 3 := by
  cases tail with
  | nil => exact Nat.zero_le _
  | cons t tail =>
    obtain ⟨hlead, -⟩ := leads_iff.1 h.1
    rw [List.length_cons]
    omega

end Spelled

section char
variable {c : Char} {b t u w : UInt8} {tail : List UInt8}

theorem ofNat_eq_iff {v : Nat} : UInt8.ofNat v = b ↔ b.toNat = v % 256 := by
  rw [← UInt8.toNat_inj, UInt8.toNat_ofNat', eq_comm]

theorem utf8EncodeChar_eq_one_iff : String.utf8EncodeChar c = [b] ↔
    Spelled b [] ∧ c.toNat = codeOf (leadBits b 0) [] := by
  rw [spelled_one_iff, codeOf_one]
  simp only [String.utf8EncodeChar, Char.toNat_val]
  split_ifs <;> simp only [List.cons.injEq, reduceCtorEq, and_true, and_false, false_iff,
    ofNat_eq_iff] <;> omega

theorem utf8EncodeChar_eq_two_iff : String.utf8EncodeChar c = [b, t] ↔
    Spelled b [t] ∧ c.toNat = codeOf (leadBits b 1) [t] := by
  rw [spelled_two_iff, codeOf_two]
  simp only [String.utf8EncodeChar, Char.toNat_val]
  split_ifs <;> simp only [List.cons.injEq, reduceCtorEq, and_true, and_false, false_iff,
    ofNat_eq_iff] <;> omega

/-- The codes of surrogate pairs are no characters, so three bytes do not write them. -/
theorem utf8EncodeChar_eq_three_iff : String.utf8EncodeChar c = [b, t, u] ↔
    Spelled b [t, u] ∧ c.toNat = codeOf (leadBits b 2) [t, u] := by
  have hvalid : c.toNat < 0xD800 ∨ 0xDFFF < c.toNat ∧ c.toNat < 0x110000 := c.valid
  rw [spelled_three_iff, codeOf_three]
  simp only [String.utf8EncodeChar, Char.toNat_val]
  split_ifs <;> simp only [List.cons.injEq, reduceCtorEq, and_true, and_false, false_iff,
    ofNat_eq_iff]
  · omega
  · omega
  · constructor
    · rintro ⟨hb, ht, hu⟩
      refine ⟨⟨?_, ?_, ?_, ?_, ?_⟩, ?_⟩ <;> omega
    · rintro ⟨⟨hb, ht, hu, hlow, hhigh⟩, hcode⟩
      refine ⟨?_, ?_, ?_⟩ <;> omega
  · omega

theorem utf8EncodeChar_eq_four_iff : String.utf8EncodeChar c = [b, t, u, w] ↔
    Spelled b [t, u, w] ∧ c.toNat = codeOf (leadBits b 3) [t, u, w] := by
  have hvalid : c.toNat < 0xD800 ∨ 0xDFFF < c.toNat ∧ c.toNat < 0x110000 := c.valid
  rw [spelled_four_iff, codeOf_four]
  simp only [String.utf8EncodeChar, Char.toNat_val]
  split_ifs <;> simp only [List.cons.injEq, reduceCtorEq, and_true, and_false, false_iff,
    ofNat_eq_iff]
  · omega
  · omega
  · omega
  · constructor
    · rintro ⟨hb, ht, hu, hw⟩
      refine ⟨⟨?_, ?_, ?_, ?_, ?_, ?_⟩, ?_⟩ <;> omega
    · rintro ⟨⟨hb, ht, hu, hw, hlow, hhigh⟩, hcode⟩
      refine ⟨?_, ?_, ?_, ?_⟩ <;> omega

/-- The bytes of a character are those that a reader takes for one, with its code in them. -/
theorem utf8EncodeChar_eq_cons_iff : String.utf8EncodeChar c = b :: tail ↔
    Spelled b tail ∧ c.toNat = codeOf (leadBits b tail.length) tail := by
  match tail with
  | [] => exact utf8EncodeChar_eq_one_iff
  | [t] => exact utf8EncodeChar_eq_two_iff
  | [t, u] => exact utf8EncodeChar_eq_three_iff
  | [t, u, w] => exact utf8EncodeChar_eq_four_iff
  | t :: u :: w :: x :: rest =>
    constructor
    · intro h
      have hlen := congrArg List.length h
      have hle := c.utf8Size_le_four
      simp only [String.length_utf8EncodeChar, List.length_cons] at hlen
      omega
    · rintro ⟨h, -⟩
      have hle := h.length_le
      simp only [List.length_cons] at hle
      omega

end char

theorem Spelled.isValidChar {b : UInt8} {tail : List UInt8} (h : Spelled b tail) :
    (codeOf (leadBits b tail.length) tail).isValidChar := by
  match tail, h with
  | [], h =>
    have hbytes := spelled_one_iff.1 h
    rw [List.length_nil, codeOf_one]
    unfold Nat.isValidChar
    omega
  | [t], h =>
    have hbytes := spelled_two_iff.1 h
    rw [List.length_singleton, codeOf_two]
    unfold Nat.isValidChar
    omega
  | [t, u], h =>
    have hbytes := spelled_three_iff.1 h
    rw [List.length_cons, List.length_singleton, codeOf_three]
    unfold Nat.isValidChar
    omega
  | [t, u, w], h =>
    have hbytes := spelled_four_iff.1 h
    rw [List.length_cons, List.length_cons, List.length_singleton, codeOf_four]
    unfold Nat.isValidChar
    omega
  | t :: u :: w :: x :: rest, h =>
    have hle := h.length_le
    simp only [List.length_cons] at hle
    omega

theorem encode_cons (c : Char) (cs : List Char) :
    encode (c :: cs) = String.utf8EncodeChar c ++ encode cs := List.flatMap_cons

/-- A reader has a text from any place on exactly when the bytes from there on are the ones that
the text is written with. -/
theorem decodeFrom_eq_ok_iff {position : Nat} {bytes : List UInt8} {cs : List Char} :
    decodeFrom position none bytes = .ok cs ↔ bytes = encode cs := by
  induction cs generalizing position bytes with
  | nil =>
    constructor
    · intro h
      cases bytes with
      | nil => rfl
      | cons b r =>
        obtain ⟨_, _, _, -, -, hne, -⟩ := decodeFrom_cons_eq_ok.1 h
        cases hne
    · rintro rfl
      rfl
  | cons c cs ih =>
    constructor
    · intro h
      cases bytes with
      | nil => cases h
      | cons b r =>
        obtain ⟨tail, r, cs', hspell, rfl, hcons, hr⟩ := decodeFrom_cons_eq_ok.1 h
        obtain ⟨rfl, rfl⟩ := List.cons.inj hcons
        have hchar : String.utf8EncodeChar (.ofNat (codeOf (leadBits b tail.length) tail)) =
            b :: tail := by
          refine utf8EncodeChar_eq_cons_iff.2 ⟨hspell, ?_⟩
          rw [Char.ofNat, dif_pos hspell.isValidChar]
          rfl
        rw [encode_cons, hchar, ih.1 hr, List.cons_append]
    · rintro rfl
      obtain ⟨b, tail, hchar⟩ := List.exists_cons_of_ne_nil String.utf8EncodeChar_ne_nil
      obtain ⟨hspell, hcode⟩ := utf8EncodeChar_eq_cons_iff.1 hchar
      rw [encode_cons, hchar]
      refine decodeFrom_cons_eq_ok.2 ⟨tail, encode cs, cs, hspell, rfl, ?_, ih.2 rfl⟩
      rw [← hcode, Char.ofNat_toNat]

theorem decode_eq_ok_iff {bytes : List UInt8} {cs : List Char} :
    decode bytes = .ok cs ↔ bytes = encode cs := decodeFrom_eq_ok_iff

end Text.Utf8

end DocComment

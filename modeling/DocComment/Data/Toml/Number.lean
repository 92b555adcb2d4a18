import DocComment.Data.Fault
import DocComment.Data.Value

/-! Numbers of TOML: integers in four bases, floats, and the words for the numbers that no digits
write. A single underscore may stand between two digits. -/

namespace DocComment.Data.Toml

open DocComment.Text

/-- The longest run of digits, of which each but the first may have an underscore before it. -/
def takeDigits (digit : Char → Option Nat) : List Char → List Nat × List Char
  | [] => ([], [])
  | '_' :: c :: r =>
    match digit c with
    | some d => let (ds, rest) := takeDigits digit r; (d :: ds, rest)
    | none => ([], '_' :: c :: r)
  | c :: r =>
    match digit c with
    | some d => let (ds, rest) := takeDigits digit r; (d :: ds, rest)
    | none => ([], c :: r)

def digitRun (digit : Char → Option Nat) (s : List Char) : Option (List Nat × List Char) :=
  match s with
  | [] => none
  | c :: r =>
    match digit c with
    | some d => let (ds, rest) := takeDigits digit r; some (d :: ds, rest)
    | none => none

def digitBelow (base : Nat) (c : Char) : Option Nat :=
  (hexValue? c).filter (· < base)

def readBased (s : List Char) : Option (Value × List Char) :=
  let based := fun base r =>
    (digitRun (digitBelow base) r).map fun (ds, rest) => (Value.int (natOf base ds), rest)
  match s with
  | '0' :: 'x' :: r => based 16 r
  | '0' :: 'b' :: r => based 2 r
  | '0' :: 'o' :: r => based 8 r
  | _ => none

def readFraction (s : List Char) : List Nat × List Char :=
  match s with
  | '.' :: r => (digitRun asciiDigit? r).getD ([], s)
  | _ => ([], s)

def readPower (s : List Char) : Option Int × List Char :=
  match s with
  | [] => (none, s)
  | c :: r =>
    if c = 'e' ∨ c = 'E' then
      let (negative, r) := takeSign r
      match digitRun asciiDigit? r with
      | some (ds, rest) => (some (signed negative (natOf 10 ds)), rest)
      | none => (none, s)
    else (none, s)

/-- Digits without a zero in front, and zero. -/
def readWhole (s : List Char) : Option (List Nat × List Char) :=
  match s with
  | '0' :: r => some ([0], r)
  | _ => digitRun asciiDigit? s

/-- A decimal number. An integer has no more digits than `digitLimit`. -/
def readDecimal (s : List Char) : Option (Except Fault (Value × List Char)) :=
  let (negative, body) := takeSign s
  (readWhole body).map fun (whole, r) =>
    let (fraction, r) := readFraction r
    let (power, r) := readPower r
    if fraction = [] ∧ power.isNone then
      if digitLimit < whole.length then .error (.excess (.digits whole.length))
      else .ok (.int (signed negative (natOf 10 whole)), r)
    else
      let exponent := power.getD 0 - fraction.length
      .ok (.float (Binary64.ofDecimal negative (natOf 10 (whole ++ fraction)) exponent), r)

def readSpecial (s : List Char) : Option (Value × List Char) :=
  match takeSign s with
  | (negative, 'i' :: 'n' :: 'f' :: r) => some (.float (.infinite negative), r)
  | (_, 'n' :: 'a' :: 'n' :: r) => some (.float .nan, r)
  | _ => none

def readNumber (s : List Char) : Except Fault (Value × List Char) :=
  match readBased s with
  | some found => .ok found
  | none =>
    match readDecimal s with
    | some found => found
    | none =>
      match readSpecial s with
      | some found => .ok found
      | none => .error .malformed

section digits
variable {s : List Char}

theorem takeDigits_of_isDigit (h : ∀ c ∈ s, c.isDigit = true) :
    takeDigits asciiDigit? s = (s.map fun c => c.toNat - 48, []) := by
  induction s with
  | nil => rfl
  | cons c r ih =>
    have hc : asciiDigit? c = some (c.toNat - 48) := if_pos (h c List.mem_cons_self)
    have hr := ih fun d hd => h d (List.mem_cons_of_mem _ hd)
    rw [takeDigits]
    · simp only [hc, hr]
      rfl
    · rintro d r' rfl -
      exact absurd (h _ List.mem_cons_self) (by decide)

theorem readBased_of_head (hz : s.head? ≠ some '0') : readBased s = none := by
  unfold readBased
  split
  · exact absurd rfl hz
  · exact absurd rfl hz
  · exact absurd rfl hz
  · rfl

theorem readWhole_of_isDigit (hs : ∀ c ∈ s, c.isDigit = true) (hne : s ≠ [])
    (hz : s.head? ≠ some '0') : readWhole s = some (s.map fun c => c.toNat - 48, []) := by
  obtain ⟨c, r, rfl⟩ := List.exists_cons_of_ne_nil hne
  have hc : asciiDigit? c = some (c.toNat - 48) := if_pos (hs c List.mem_cons_self)
  have hr := takeDigits_of_isDigit fun d hd => hs d (List.mem_cons_of_mem _ hd)
  rw [readWhole]
  · simp only [digitRun, hc, hr]
    rfl
  · rintro _ heq
    exact hz (by rw [heq]; rfl)

theorem readNumber_of_long (hs : ∀ c ∈ s, c.isDigit = true) (hz : s.head? ≠ some '0')
    (hlong : digitLimit < s.length) : readNumber s = .error (.excess (.digits s.length)) := by
  have hne : s ≠ [] := by
    rintro rfl
    exact absurd hlong (Nat.not_lt_zero _)
  have hdecimal : readDecimal s = some (.error (.excess (.digits s.length))) := by
    simp only [readDecimal, takeSign_of_isDigit hs, readWhole_of_isDigit hs hne hz, readFraction,
      readPower, Option.map_some, Option.isNone_none, and_self, if_true, List.length_map, hlong]
  rw [readNumber, readBased_of_head hz]
  simp only [hdecimal]

end digits

end DocComment.Data.Toml

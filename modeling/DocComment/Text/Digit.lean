import DocComment.Text.Blank

/-! Digits: hexadecimal ones, the decimal digits of all scripts, and integers and their texts. -/

namespace DocComment.Text

def hexValue? (c : Char) : Option Nat :=
  if c.isDigit then some (c.toNat - 48)
  else if 'a' ≤ c ∧ c ≤ 'f' then some (c.toNat - 87)
  else if 'A' ≤ c ∧ c ≤ 'F' then some (c.toNat - 55)
  else none

def asciiDigit? (c : Char) : Option Nat := if c.isDigit then some (c.toNat - 48) else none

/-- Where the zero of each script stands; its other nine digits follow. -/
def digitZeros : List Nat :=
  [0x30, 0x660, 0x6f0, 0x7c0, 0x966, 0x9e6, 0xa66, 0xae6, 0xb66, 0xbe6, 0xc66, 0xce6, 0xd66, 0xde6,
    0xe50, 0xed0, 0xf20, 0x1040, 0x1090, 0x17e0, 0x1810, 0x1946, 0x19d0, 0x1a80, 0x1a90, 0x1b50,
    0x1bb0, 0x1c40, 0x1c50, 0xa620, 0xa8d0, 0xa900, 0xa9d0, 0xa9f0, 0xaa50, 0xabf0, 0xff10,
    0x104a0, 0x10d30, 0x11066, 0x110f0, 0x11136, 0x111d0, 0x112f0, 0x11450, 0x114d0, 0x11650,
    0x116c0, 0x11730, 0x118e0, 0x11950, 0x11c50, 0x11d50, 0x11da0, 0x16a60, 0x16ac0, 0x16b50,
    0x1d7ce, 0x1d7d8, 0x1d7e2, 0x1d7ec, 0x1d7f6, 0x1e140, 0x1e2f0, 0x1e950, 0x1fbf0]

def digit? (c : Char) : Option Nat :=
  (digitZeros.find? fun z => z ≤ c.toNat && c.toNat < z + 10).map (c.toNat - ·)

def natOf (base : Nat) (digits : List Nat) : Nat := digits.foldl (fun n d => n * base + d) 0

/-- The digits of a text that has nothing but digits and single underscores between them. -/
def spacedDigits? (digit : Char → Option Nat) : List Char → Option (List Nat)
  | [] => none
  | [c] => (digit c).map ([·])
  | c :: '_' :: r => do
    let d ← digit c
    let ds ← spacedDigits? digit r
    return d :: ds
  | c :: r => do
    let d ← digit c
    let ds ← spacedDigits? digit r
    return d :: ds

def takeSign : List Char → Bool × List Char
  | '-' :: r => (true, r)
  | '+' :: r => (false, r)
  | s => (false, s)

theorem takeSign_of_isDigit {s : List Char} (h : ∀ c ∈ s, c.isDigit = true) :
    takeSign s = (false, s) := by
  unfold takeSign
  split
  · exact absurd (h _ List.mem_cons_self) (by decide)
  · exact absurd (h _ List.mem_cons_self) (by decide)
  · rfl

def signed (negative : Bool) (n : Nat) : Int := if negative then -(n : Int) else n

def digitLimit : Nat := 4300

/-- The text of an integer that has no more digits than that. -/
def showInt? (n : Int) : Option Text :=
  if (Nat.toDigits 10 n.natAbs).length ≤ digitLimit then some (toString n) else none

theorem length_toDigits_le_iff {n k : Nat} (hk : 0 < k) :
    (Nat.toDigits 10 n).length ≤ k ↔ n < Nat.pow 10 k := Nat.length_toDigits_le_iff (by decide) hk

theorem showInt?_eq_none_iff {n : Int} : showInt? n = none ↔ Nat.pow 10 digitLimit ≤ n.natAbs := by
  rw [← Nat.not_lt, ← length_toDigits_le_iff (by decide), showInt?, ite_eq_right_iff]
  exact forall_congr' fun _ => iff_false_intro (Option.some_ne_none _)

/-- An integer with a sign or without, white space around it. -/
def readInt? (digit : Char → Option Nat) (s : List Char) : Option Int :=
  let (negative, body) := takeSign (trimBy (isSpace ·.toNat) s)
  (spacedDigits? digit body).bind fun ds =>
    if ds.length ≤ digitLimit then some (signed negative (natOf 10 ds)) else none

def places (base width n : Nat) : List Char :=
  let ds := Nat.toDigits base n
  List.replicate (width - ds.length) '0' ++ ds

end DocComment.Text

import DocComment.Data.Value
import DocComment.Text.Digit

/-! Dates and times of TOML, read and brought into one written form: six places for a fraction of a
second that is not zero, `T` before the time of day, and an offset in hours and minutes. -/

namespace DocComment.Data.Toml

def digitValue (c : Char) : Nat := c.toNat - 48

def twoDigits (low high : Nat) : List Char → Option (Nat × List Char)
  | a :: b :: r =>
    let n := digitValue a * 10 + digitValue b
    if a.isDigit && b.isDigit && low ≤ n && n ≤ high then some (n, r) else none
  | _ => none

def expect (c : Char) : List Char → Option (List Char)
  | [] => none
  | d :: r => if d = c then some r else none

structure Date where
  year : Nat
  month : Nat
  day : Nat
  deriving DecidableEq, Inhabited

/-- `micros` counts the millionths of a second. -/
structure Time where
  hour : Nat
  minute : Nat
  second : Nat
  micros : Nat
  deriving DecidableEq, Inhabited

structure Offset where
  negative : Bool
  hours : Nat
  minutes : Nat
  deriving DecidableEq, Inhabited

def isLeap (y : Nat) : Bool := y % 4 = 0 && (y % 100 ≠ 0 || y % 400 = 0)

def daysIn (year month : Nat) : Nat :=
  if month = 2 then (if isLeap year then 29 else 28)
  else if month = 4 ∨ month = 6 ∨ month = 9 ∨ month = 11 then 30
  else 31

/-- There is no year zero. -/
def Date.isValid (d : Date) : Bool := 1 ≤ d.year && d.day ≤ daysIn d.year d.month

def readDate (s : List Char) : Option (Date × List Char) := do
  let (century, s) ← twoDigits 0 99 s
  let (year, s) ← twoDigits 0 99 s
  let s ← expect '-' s
  let (month, s) ← twoDigits 1 12 s
  let s ← expect '-' s
  let (day, s) ← twoDigits 1 31 s
  return ({ year := century * 100 + year, month, day }, s)

/-- The millionths in a fraction of a second; places after the sixth are dropped. -/
def readMicros (s : List Char) : Nat × List Char :=
  match s with
  | '.' :: r =>
    match r.span Char.isDigit with
    | ([], _) => (0, s)
    | (ds, rest) =>
      let six := (ds ++ List.replicate 6 '0').take 6
      (six.foldl (fun n c => n * 10 + digitValue c) 0, rest)
  | _ => (0, s)

def readTime (s : List Char) : Option (Time × List Char) := do
  let (hour, s) ← twoDigits 0 23 s
  let s ← expect ':' s
  let (minute, s) ← twoDigits 0 59 s
  let s ← expect ':' s
  let (second, s) ← twoDigits 0 59 s
  let (micros, s) := readMicros s
  return ({ hour, minute, second, micros }, s)

def readOffset (s : List Char) : Option Offset × List Char :=
  match s with
  | [] => (none, s)
  | c :: r =>
    if c = 'Z' ∨ c = 'z' then (some { negative := false, hours := 0, minutes := 0 }, r)
    else if c = '+' ∨ c = '-' then
      let found := do
        let (hours, r) ← twoDigits 0 23 r
        let r ← expect ':' r
        let (minutes, r) ← twoDigits 0 59 r
        return ({ negative := c = '-', hours, minutes : Offset }, r)
      match found with
      | some (o, r) => (some o, r)
      | none => (none, s)
    else (none, s)

def padded (width n : Nat) : String := String.ofList (Text.places 10 width n)

def Date.text (d : Date) : String :=
  padded 4 d.year ++ "-" ++ padded 2 d.month ++ "-" ++ padded 2 d.day

def Time.text (t : Time) : String :=
  padded 2 t.hour ++ ":" ++ padded 2 t.minute ++ ":" ++ padded 2 t.second ++
    if t.micros = 0 then "" else "." ++ padded 6 t.micros

/-- An offset of nothing has a plus sign. -/
def Offset.text (o : Offset) : String :=
  (if o.negative ∧ (o.hours ≠ 0 ∨ o.minutes ≠ 0) then "-" else "+") ++
    padded 2 o.hours ++ ":" ++ padded 2 o.minutes

/-- A date, a date with a time of day, or a time of day alone. Where the characters are those of a
date that the calendar does not have, the outer result is there and the inner one is not. -/
def readMoment (s : List Char) : Option (Option (Value × List Char)) :=
  match readDate s with
  | some (d, r) =>
    let timed := match r with
      | c :: r' => if c = 'T' ∨ c = 't' ∨ c = ' ' then readTime r' else none
      | [] => none
    let v := match timed with
      | none => (Value.moment .date d.text, r)
      | some (t, r) =>
        let (o, r) := readOffset r
        let offset := (o.map Offset.text).getD ""
        (Value.moment .datetime (d.text ++ "T" ++ t.text ++ offset), r)
    some (if d.isValid then some v else none)
  | none => (readTime s).map fun (t, r) => some (.moment .time t.text, r)

section digits
variable {s : List Char}

theorem expect_of_isDigit {c : Char} (hc : c.isDigit = false) (h : ∀ d ∈ s, d.isDigit = true) :
    expect c s = none := by
  cases s with
  | nil => rfl
  | cons d r =>
    have hd : d ≠ c := by
      rintro rfl
      rw [h d List.mem_cons_self] at hc
      cases hc
    exact if_neg hd

theorem suffix_of_twoDigits {low high n : Nat} {r : List Char}
    (h : twoDigits low high s = some (n, r)) : r <:+ s := by
  match s with
  | [] => cases h
  | [a] => cases h
  | a :: b :: t =>
    simp only [twoDigits] at h
    split at h
    · cases h
      exact List.suffix_append [_, _] _
    · cases h

theorem readDate_of_isDigit (h : ∀ c ∈ s, c.isDigit = true) : readDate s = none := by
  unfold readDate
  simp only [Option.bind_eq_bind, Option.bind_eq_none_iff]
  rintro ⟨century, r⟩ hr ⟨year, r'⟩ hr' t ht
  have hdash : expect '-' r' = none := expect_of_isDigit (by decide) fun d hd =>
    h d ((suffix_of_twoDigits hr).mem ((suffix_of_twoDigits hr').mem hd))
  cases hdash.symm.trans ht

theorem readTime_of_isDigit (h : ∀ c ∈ s, c.isDigit = true) : readTime s = none := by
  unfold readTime
  simp only [Option.bind_eq_bind, Option.bind_eq_none_iff]
  rintro ⟨hour, r⟩ hr t ht
  have hcolon : expect ':' r = none := expect_of_isDigit (by decide) fun d hd =>
    h d ((suffix_of_twoDigits hr).mem hd)
  cases hcolon.symm.trans ht

theorem readMoment_of_isDigit (h : ∀ c ∈ s, c.isDigit = true) : readMoment s = none := by
  rw [readMoment, readDate_of_isDigit h, readTime_of_isDigit h]
  rfl

end digits

end DocComment.Data.Toml

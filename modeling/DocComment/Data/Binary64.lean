/-! Binary floating point numbers of 64 bits, exactly: reading a decimal gives the nearest number,
and writing one gives the shortest decimal that reads back. No machine float takes part. -/

namespace DocComment.Data

/-- `finite` stands for `mantissa * 2 ^ exponent`, with a mantissa below `2 ^ 53` and an exponent
from -1074 to 971. -/
inductive Binary64
  | nan
  | infinite (negative : Bool)
  | finite (negative : Bool) (mantissa : Nat) (exponent : Int)
  deriving DecidableEq, Inhabited

/-- The quotient to the nearest integer; a half goes to the even neighbour. -/
def divNearest (num den : Nat) : Nat :=
  let q := num / den
  let r := num % den
  if 2 * r < den then q else if den < 2 * r then q + 1 else if q % 2 = 0 then q else q + 1

namespace Binary64

def zero (negative : Bool) : Binary64 := .finite negative 0 (-1074)

/-- The exponent of the greatest power of two that is not above `num / den`. -/
def magnitude (num den : Nat) : Int :=
  let k : Int := (num.log2 : Int) - den.log2
  let below := if 0 ≤ k then num < den * Nat.pow 2 k.toNat else num * Nat.pow 2 (-k).toNat < den
  if below then k - 1 else k

def ofRatio (negative : Bool) (num den : Nat) : Binary64 :=
  if num = 0 then zero negative
  else
    let e := max (magnitude num den - 52) (-1074)
    let m := if 0 ≤ e then divNearest num (den * Nat.pow 2 e.toNat)
      else divNearest (num * Nat.pow 2 (-e).toNat) den
    let (m, e) := if m = Nat.pow 2 53 then (Nat.pow 2 52, e + 1) else (m, e)
    if 971 < e then .infinite negative else .finite negative m e

/-- The number nearest to `digits * 10 ^ exponent`. What is too great by far or too small by far is
settled before any power is taken. -/
def ofDecimal (negative : Bool) (digits : Nat) (exponent : Int) : Binary64 :=
  let top := (Nat.toDigits 10 digits).length + exponent
  if digits = 0 then zero negative
  else if 310 < top then .infinite negative
  else if top < -330 then zero negative
  else if 0 ≤ exponent then ofRatio negative (digits * Nat.pow 10 exponent.toNat) 1
  else ofRatio negative digits (Nat.pow 10 (-exponent).toNat)

def toInt? : Binary64 → Option Int
  | .finite negative m e =>
    let signed := fun n : Nat => if negative then -(n : Int) else n
    if 0 ≤ e then some (signed (m * Nat.pow 2 e.toNat))
    else if m % Nat.pow 2 (-e).toNat = 0 then some (signed (m / Nat.pow 2 (-e).toNat))
    else none
  | _ => none

/-- How many digits stand before the point; negative where zeros follow it. -/
def pointPlace (m : Nat) (e : Int) : Int :=
  let scaled :=
    if 0 ≤ e then m * Nat.pow 2 e.toNat * Nat.pow 10 400
    else m * Nat.pow 10 400 / Nat.pow 2 (-e).toNat
  (Nat.toDigits 10 scaled).length - 400

/-- The multiple of `10 ^ k` that reads back as `m * 2 ^ e` and is nearest to it, as its factor.
A decimal reads back when it lies between the midpoints to the two neighbours, or on one of them if
`m` is even. -/
def nearestOnGrid (m : Nat) (e k : Int) : Option Nat :=
  let unit := Nat.pow 10 k.toNat * Nat.pow 2 (2 - e).toNat
  let scale := Nat.pow 10 (-k).toNat * Nat.pow 2 (e - 2).toNat
  let low := (if m = Nat.pow 2 52 ∧ -1074 < e then 4 * m - 1 else 4 * m - 2) * scale
  let high := (4 * m + 2) * scale
  let hits := fun c : Nat =>
    if m % 2 = 0 then decide (low ≤ c * unit) && decide (c * unit ≤ high)
    else decide (low < c * unit) && decide (c * unit < high)
  let c := 4 * m * scale / unit
  let below := 4 * m * scale - c * unit
  let above := (c + 1) * unit - 4 * m * scale
  match hits c, hits (c + 1) with
  | false, false => none
  | true, false => some c
  | false, true => some (c + 1)
  | true, true => some (if below < above ∨ (below = above ∧ c % 2 = 0) then c else c + 1)

/-- The fewest digits that read back, as an integer and a power of ten. Seventeen are always
enough. -/
def shortest (m : Nat) (e : Int) : Nat × Int :=
  let point := pointPlace m e
  let found := (List.range 17).findSome? fun n =>
    let k := point - (n + 1 : Nat)
    (nearestOnGrid m e k).map (·, k)
  found.getD (m, 0)

/-- Digits with the point in place: positional while the point stands between the fourth zero after
it and the sixteenth digit before it, and by a power of ten elsewhere. -/
def layout (digits : List Char) (point : Int) : List Char :=
  let zeros := fun n : Nat => List.replicate n '0'
  let size : Int := digits.length
  if -4 < point ∧ point ≤ 16 then
    if point ≤ 0 then '0' :: '.' :: (zeros (-point).toNat ++ digits)
    else if size ≤ point then digits ++ zeros (point - size).toNat ++ ['.', '0']
    else digits.take point.toNat ++ '.' :: digits.drop point.toNat
  else
    let power := point - 1
    let places := Nat.toDigits 10 power.natAbs
    let fraction := match digits.drop 1 with
      | [] => []
      | r => '.' :: r
    digits.take 1 ++ fraction ++ 'e' :: (if power < 0 then '-' else '+') ::
      (zeros (2 - places.length) ++ places)

def text : Binary64 → String
  | .nan => "nan"
  | .infinite negative => if negative then "-inf" else "inf"
  | .finite negative m e =>
    let body :=
      if m = 0 then ['0', '.', '0']
      else
        let (n, k) := shortest m e
        let all := Nat.toDigits 10 n
        let digits := (all.reverse.dropWhile (· == '0')).reverse
        layout digits (all.length + k)
    String.ofList (if negative then '-' :: body else body)

end Binary64

end DocComment.Data

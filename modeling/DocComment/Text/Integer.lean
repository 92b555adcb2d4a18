import DocComment.Text.Digit

/-! Integers as a client may write them in a string. A plain integer has a minus sign or none and no
zero in front. A text that is no plain integer is tidied first: white space around it, a plus sign,
zeros in front, a fraction of zeros and single underscores go. -/

namespace DocComment.Text

inductive IntegerFault
  | malformed | tooLong
  deriving DecidableEq, Inhabited

def isNonzeroDigit (c : Char) : Bool := c.isDigit && c != '0'

/-- A plain integer. That it has too many digits counts before what follows them. -/
def readPlain (s : List Char) : Except IntegerFault Int :=
  let (negative, body) := match s with
    | '-' :: r => (true, r)
    | _ => (false, s)
  match body with
  | [] => .error .malformed
  | ['0'] => .ok 0
  | c :: r =>
    if isNonzeroDigit c then
      let (ds, rest) := r.span Char.isDigit
      if digitLimit ≤ ds.length then .error .tooLong
      else if rest ≠ [] then .error .malformed
      else .ok (signed negative (natOf 10 ((c :: ds).map fun d => d.toNat - 48)))
    else .error .malformed

/-- The rest of a number behind zeros and underscores, of which `last` is the last one. One zero is
kept before a fraction and where nothing follows. -/
def afterZeros (last : Char) : List Char → Option (List Char)
  | [] => some [last]
  | c :: r =>
    if c = '0' ∨ c = '_' then afterZeros c r
    else if c = '.' then some (last :: c :: r)
    else if isNonzeroDigit c ∨ c = '-' then some (c :: r)
    else none

def dropLeadingZeros : List Char → Option (List Char)
  | [] => none
  | c :: r =>
    if c = '0' then afterZeros c r
    else if isNonzeroDigit c ∨ c = '-' then some (c :: r)
    else none

def dropZeroFraction (s : List Char) : List Char :=
  match s.span (· != '.') with
  | (whole, '.' :: z :: zs) => if (z :: zs).all (· == '0') then whole else s
  | _ => s

def hasDoubleUnderscore : List Char → Bool
  | '_' :: '_' :: _ => true
  | _ :: r => hasDoubleUnderscore r
  | [] => false

def dropUnderscores (s : List Char) : List Char :=
  if s.head? = some '_' ∨ s.getLast? = some '_' ∨ hasDoubleUnderscore s = true then s
  else s.filter (· != '_')

def tidied? (s : List Char) : Option (List Char) :=
  let tidy := fun body => (dropLeadingZeros body).map fun r => dropUnderscores (dropZeroFraction r)
  match trimBy (isSpace ·.toNat) s with
  | '-' :: r => (tidy r).map ('-' :: ·)
  | '+' :: '-' :: _ => none
  | '+' :: r => tidy r
  | r => tidy r

def readInteger (s : List Char) : Except IntegerFault Int :=
  match readPlain s with
  | .ok n => .ok n
  | .error .tooLong => .error .tooLong
  | .error .malformed =>
    match (tidied? s).map readPlain with
    | some (.ok n) => .ok n
    | _ => .error .malformed

end DocComment.Text

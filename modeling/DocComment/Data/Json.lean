import DocComment.Data.Fault
import DocComment.Data.Value

/-! JSON: the reader takes the standard's grammar and `NaN` and the infinities with it; the printer
keeps to ASCII. Of two entries of an object with one key the last is kept. Reading stops at the
first fault, which may be that integers are too long or values lie too deep. -/

namespace DocComment.Data.Json

open DocComment.Text

def isBlank (c : Char) : Bool := c == ' ' || c == '\t' || c == '\n' || c == '\r'

def skipBlanks (s : List Char) : List Char := s.dropWhile isBlank

def isHighSurrogate (n : Nat) : Bool := 0xD800 ≤ n && n < 0xDC00

def isLowSurrogate (n : Nat) : Bool := 0xDC00 ≤ n && n < 0xE000

def joinSurrogates (high low : Nat) : Nat := 0x10000 + (high - 0xD800) * 0x400 + (low - 0xDC00)

def unitOf? (a b c d : Char) : Option Nat := do
  return natOf 16 [← hexValue? a, ← hexValue? b, ← hexValue? c, ← hexValue? d]

def escape? : Char → Option Char
  | '"' => some '"'
  | '\\' => some '\\'
  | '/' => some '/'
  | 'b' => some '\x08'
  | 'f' => some '\x0c'
  | 'n' => some '\n'
  | 'r' => some '\r'
  | 't' => some '\t'
  | _ => none

/-- The code points read so far, newest first, once no other half of a pair can follow. -/
def settle (high : Option Nat) (acc : Text) : Text :=
  match high with
  | some h => .ofCode h :: acc
  | none => acc

/-- The rest of a string after its opening quote. `high` is a high surrogate still waiting for its
other half. -/
def readChars (high : Option Nat) (acc : Text) : List Char → Option (Text × List Char)
  | [] => none
  | '"' :: r => some ((settle high acc).reverse, r)
  | '\\' :: 'u' :: a :: b :: c :: d :: r =>
    match unitOf? a b c d with
    | none => none
    | some n =>
      match high with
      | some h =>
        if isLowSurrogate n then readChars none (.ofCode (joinSurrogates h n) :: acc) r
        else if isHighSurrogate n then readChars (some n) (settle high acc) r
        else readChars none (.ofCode n :: settle high acc) r
      | none =>
        if isHighSurrogate n then readChars (some n) acc r
        else readChars none (.ofCode n :: acc) r
  | '\\' :: c :: r =>
    match escape? c with
    | some x => readChars none (.char x :: settle high acc) r
    | none => none
  | c :: r => if c.toNat < 32 then none else readChars none (.char c :: settle high acc) r

def spanDigits (s : List Char) : List Char × List Char := s.span Char.isDigit

def digitsValue (ds : List Char) : Nat := natOf 10 (ds.map fun c => c.toNat - 48)

/-- A power of ten behind a mantissa; what does not make one is left alone. -/
def readPower (s : List Char) : Option Int × List Char :=
  match s with
  | [] => (none, s)
  | c :: r =>
    if c = 'e' ∨ c = 'E' then
      let (negative, r) := takeSign r
      match spanDigits r with
      | ([], _) => (none, s)
      | (ds, r) => (some (signed negative (digitsValue ds)), r)
    else (none, s)

def readFraction (s : List Char) : List Char × List Char :=
  match s with
  | '.' :: r =>
    match spanDigits r with
    | ([], _) => ([], s)
    | (ds, r) => (ds, r)
  | _ => ([], s)

def readWhole (s : List Char) : Option (List Char × List Char) :=
  match s with
  | '0' :: r => some (['0'], r)
  | _ =>
    match spanDigits s with
    | ([], _) => none
    | (ds, r) => some (ds, r)

/-- A number. An integer without fraction and power has no more digits than `digitLimit`. -/
def readNumber (s : List Char) : Except Fault (Value × List Char) :=
  let (negative, body) := match s with
    | '-' :: r => (true, r)
    | _ => (false, s)
  match readWhole body with
  | none => .error .malformed
  | some (whole, r) =>
    let (fraction, r) := readFraction r
    let (power, r) := readPower r
    if fraction = [] ∧ power.isNone then
      if digitLimit < whole.length then .error (.excess (.digits whole.length))
      else .ok (.int (signed negative (digitsValue whole)), r)
    else
      let exponent := power.getD 0 - fraction.length
      .ok (.float (Binary64.ofDecimal negative (digitsValue (whole ++ fraction)) exponent), r)

def words : List (List Char × Value) :=
  [("null".toList, .null), ("true".toList, .bool true), ("false".toList, .bool false),
    ("NaN".toList, .float .nan), ("Infinity".toList, .float (.infinite false)),
    ("-Infinity".toList, .float (.infinite true))]

def readWord (s : List Char) : Option (Value × List Char) :=
  words.findSome? fun (w, v) => if w.isPrefixOf s then some (v, s.drop w.length) else none

mutual

/-- A value with room for `room` levels of arrays and objects; `fuel` bounds the calls below and is
enough when twice the length of the text is. -/
def readValue : Nat → Nat → List Char → Except Fault (Value × List Char)
  | 0, _, _ => .error .malformed
  | fuel + 1, room, s =>
    match s, room with
    | '"' :: r, _ =>
      match readChars none [] r with
      | some (t, r) => .ok (.text t, r)
      | none => .error .malformed
    | '[' :: _, 0 => .error (.excess (.depth (some .array)))
    | '[' :: r, room + 1 =>
      match skipBlanks r with
      | ']' :: r => .ok (.list [], r)
      | r => (readItems fuel room r).map fun (vs, r) => (.list vs, r)
    | '\x7b' :: _, 0 => .error (.excess (.depth (some .object)))
    | '\x7b' :: r, room + 1 =>
      match skipBlanks r with
      | '\x7d' :: r => .ok (.table [], r)
      | r => (readEntries fuel room [] r).map fun (t, r) => (.table t, r)
    | _, _ =>
      match readWord s with
      | some found => .ok found
      | none => readNumber s

def readItems : Nat → Nat → List Char → Except Fault (List Value × List Char)
  | 0, _, _ => .error .malformed
  | fuel + 1, room, s =>
    match readValue fuel room s with
    | .error e => .error e
    | .ok (v, r) =>
      match skipBlanks r with
      | ']' :: r => .ok ([v], r)
      | ',' :: r => (readItems fuel room (skipBlanks r)).map fun (vs, r) => (v :: vs, r)
      | _ => .error .malformed

def readEntries : Nat → Nat → Table → List Char → Except Fault (Table × List Char)
  | 0, _, _, _ => .error .malformed
  | fuel + 1, room, t, s =>
    match s with
    | '"' :: r =>
      match readChars none [] r with
      | none => .error .malformed
      | some (k, r) =>
        match skipBlanks r with
        | ':' :: r =>
          match readValue fuel room (skipBlanks r) with
          | .error e => .error e
          | .ok (v, r) =>
            match skipBlanks r with
            | '\x7d' :: r => .ok (t.set k v, r)
            | ',' :: r => readEntries fuel room (t.set k v) (skipBlanks r)
            | _ => .error .malformed
        | _ => .error .malformed
    | _ => .error .malformed

end

/-- The value of a whole text, with as many levels inside each other as there is `room` for. -/
def read (room : Nat) (s : List Char) : Except Fault Value :=
  match readValue (2 * s.length + 2) room (skipBlanks s) with
  | .ok (v, r) => if skipBlanks r = [] then .ok v else .error .malformed
  | .error e => .error e

def unitEscape (n : Nat) : List Char := '\\' :: 'u' :: places 16 4 n

/-- A code point inside a string: the printable characters of ASCII as they are, all else escaped,
by a surrogate pair above the basic plane. -/
def escaped (c : CodePoint) : List Char :=
  let n := c.code
  if n = 0x22 then ['\\', '"']
  else if n = 0x5C then ['\\', '\\']
  else if n = 10 then ['\\', 'n']
  else if n = 13 then ['\\', 'r']
  else if n = 9 then ['\\', 't']
  else if n = 8 then ['\\', 'b']
  else if n = 12 then ['\\', 'f']
  else if 32 ≤ n ∧ n < 127 then [Char.ofNat n]
  else if n < 0x10000 then unitEscape n
  else
    let m := n - 0x10000
    unitEscape (0xD800 + m / 0x400) ++ unitEscape (0xDC00 + m % 0x400)

def quoted (s : Text) : String := "\"" ++ String.ofList (s.flatMap escaped) ++ "\""

def floatText (x : Binary64) : String :=
  match x with
  | .nan => "NaN"
  | .infinite false => "Infinity"
  | .infinite true => "-Infinity"
  | x => x.text

def enclosed (opening closing : String) (indent : Option Nat) (members : List String) : String :=
  match members, indent with
  | [], _ => opening ++ closing
  | ms, none => opening ++ String.intercalate ", " ms ++ closing
  | ms, some n =>
    let line := fun k => "\n" ++ String.ofList (List.replicate k ' ')
    opening ++ line (n + 2) ++ String.intercalate ("," ++ line (n + 2)) ms ++ line n ++ closing

mutual

/-- `indent` is where the line of the value starts, or nothing for a text of one line. The keys of
an object are sorted. -/
def print (indent : Option Nat) : Value → String
  | .null => "null"
  | .bool b => if b then "true" else "false"
  | .int n => toString n
  | .float x => floatText x
  | .text s => quoted s
  | .list vs => enclosed "[" "]" indent (printItems (indent.map (· + 2)) vs)
  | .table es =>
    let members := (printEntries (indent.map (· + 2)) es).mergeSort fun a b => a.1.precedes b.1
    enclosed "\x7b" "\x7d" indent (members.map fun m => quoted m.1 ++ ": " ++ m.2)
  | .moment _ s => quoted s

def printItems (indent : Option Nat) : List Value → List String
  | [] => []
  | v :: vs => print indent v :: printItems indent vs

def printEntries (indent : Option Nat) : List (Text × Value) → List (Text × String)
  | [] => []
  | (k, v) :: es => (k, print indent v) :: printEntries indent es

end

def compact (v : Value) : String := print none v

def pretty (v : Value) : String := print (some 0) v

end DocComment.Data.Json

import DocComment.Data.Value
import DocComment.Text.Integer

/-! Checking a payload against the shape that a request has. A check goes on after a fault, so that
one answer names all faults, each with its place, in the order of the fields. -/

namespace DocComment

open Data

inductive Expectation
  | present
  | text
  | characters
  | list
  | model (name : String)
  | member (words : List Text)
  | literal (words : List Text)
  | boolText
  | bool
  | intText
  | wholeNumber
  | finiteNumber
  | boundedInt
  | int
  deriving DecidableEq, Inhabited

namespace Expectation

def choices : List Text → Text
  | [] => []
  | [w] => "'" ++ w ++ "'"
  | [v, w] => "'" ++ v ++ "' or '" ++ w ++ "'"
  | w :: ws => "'" ++ w ++ "', " ++ choices ws

def message : Expectation → Text
  | .present => "Field required"
  | .text => "Input should be a valid string"
  | .characters =>
    "Input should be a valid string, unable to parse raw data as a unicode string"
  | .list => "Input should be a valid list"
  | .model n => "Input should be a valid dictionary or instance of " ++ n
  | .member ws => "Input should be " ++ choices ws
  | .literal ws => "Input should be " ++ choices ws
  | .boolText => "Input should be a valid boolean, unable to interpret input"
  | .bool => "Input should be a valid boolean"
  | .intText => "Input should be a valid integer, unable to parse string as an integer"
  | .wholeNumber => "Input should be a valid integer, got a number with a fractional part"
  | .finiteNumber => "Input should be a finite number"
  | .boundedInt => "Unable to parse input string as an integer, exceeded maximum size"
  | .int => "Input should be a valid integer"

def code : Expectation → String
  | .present => "missing"
  | .text => "string_type"
  | .characters => "string_unicode"
  | .list => "list_type"
  | .model _ => "model_type"
  | .member _ => "enum"
  | .literal _ => "literal_error"
  | .boolText => "bool_parsing"
  | .bool => "bool_type"
  | .intText => "int_parsing"
  | .wholeNumber => "int_from_float"
  | .finiteNumber => "finite_number"
  | .boundedInt => "int_parsing_size"
  | .int => "int_type"

end Expectation

/-- `place` leads from the whole payload to the value, `given` says what kind of value is there. -/
structure PayloadFault where
  place : List String
  expected : Expectation
  given : String
  deriving DecidableEq, Inhabited

def PayloadFault.text (f : PayloadFault) : Text :=
  (if f.place = [] then "" else "\n" ++ String.intercalate "." f.place) ++ "\n  " ++
    f.expected.message ++ " [type=" ++ f.expected.code ++ ", input_type=" ++ f.given ++ "]"

def faultsText (model : String) (fs : List PayloadFault) : Text :=
  toString fs.length ++ " validation error" ++ (if fs.length = 1 then "" else "s") ++ " for " ++
    model ++ fs.flatMap PayloadFault.text

inductive Checked (α : Type)
  | valid (a : α)
  | faulty (fs : List PayloadFault)

namespace Checked

def map {α β : Type} (f : α → β) : Checked α → Checked β
  | .valid a => .valid (f a)
  | .faulty fs => .faulty fs

def both {α β : Type} : Checked α → Checked β → Checked (α × β)
  | .valid a, .valid b => .valid (a, b)
  | .valid _, .faulty fs => .faulty fs
  | .faulty fs, .valid _ => .faulty fs
  | .faulty fs, .faulty gs => .faulty (fs ++ gs)

instance : Applicative Checked where
  pure := .valid
  seq f x := (both f (x ())).map fun (g, a) => g a

def all {α : Type} : List (Checked α) → Checked (List α)
  | [] => .valid []
  | c :: cs => (both c (all cs)).map fun (a, as) => a :: as

section valid
variable {α β : Type} {a : α} {b : β} {c : Checked α}

theorem map_eq_valid {f : α → β} : c.map f = .valid b ↔ ∃ a, c = .valid a ∧ f a = b := by
  cases c <;> simp [map]

theorem seq_eq_valid {f : Checked (α → β)} :
    f <*> c = .valid b ↔ ∃ g, f = .valid g ∧ ∃ a, c = .valid a ∧ g a = b := by
  cases f <;> cases c <;> simp [Seq.seq, both, map]

theorem fmap_eq_valid {f : α → β} : f <$> c = .valid b ↔ ∃ a, c = .valid a ∧ f a = b := by
  cases c <;> simp [Functor.map, both, map]

end valid

end Checked

abbrev Check (α : Type) := List String → Value → Checked α

namespace Check

def fault {α : Type} (place : List String) (e : Expectation) (v : Value) : Checked α :=
  .faulty [{ place, expected := e, given := v.typeWord }]

def text : Check Text := fun place v =>
  match v with
  | .text s => .valid s
  | v => fault place .text v

/-- Reads the characters of a text that is more than handed on. -/
def withCharacters {α : Type} (place : List String) (s : Text) (read : List Char → Checked α) :
    Checked α :=
  match s.chars? with
  | some cs => read cs
  | none => fault place .characters (.text s)

def boolOfWord? (s : Text) : Option Bool :=
  let w := s.lower
  if (["0", "off", "f", "false", "n", "no"] : List Text).contains w then some false
  else if (["1", "on", "t", "true", "y", "yes"] : List Text).contains w then some true
  else none

def boolOfInt (place : List String) (n : Int) (v : Value) : Checked Bool :=
  if n = 0 then .valid false else if n = 1 then .valid true else fault place .boolText v

/-- A machine word holds the integers from the negative of this one up to the one below it. -/
def wordLimit : Int := 0x8000000000000000

/-- A whole number that a machine word holds; the lowest word is left out. -/
def wordOf? (x : Binary64) : Option Int :=
  x.toInt?.filter fun n => -wordLimit < n && n < wordLimit

def bool : Check Bool := fun place v =>
  match v with
  | .bool b => .valid b
  | .int n =>
    if -wordLimit ≤ n ∧ n < wordLimit then boolOfInt place n v else fault place .bool v
  | .text s => withCharacters place s fun cs =>
    match boolOfWord? (Text.ofChars cs) with
    | some b => .valid b
    | none => fault place .boolText v
  | .float x =>
    match wordOf? x with
    | some n => boolOfInt place n v
    | none => fault place .bool v
  | v => fault place .bool v

def int : Check Int := fun place v =>
  match v with
  | .int n => .valid n
  | .bool b => .valid (if b then 1 else 0)
  | .float (.finite negative m e) =>
    let x := Binary64.finite negative m e
    match wordOf? x with
    | some n => .valid n
    | none => fault place (if x.toInt?.isSome then .boundedInt else .wholeNumber) v
  | .float _ => fault place .finiteNumber v
  | .text s => withCharacters place s fun cs =>
    match Text.readInteger cs with
    | .ok n => .valid n
    | .error .malformed => fault place .intText v
    | .error .tooLong => fault place .boundedInt v
  | v => fault place .int v

def nullable {α : Type} (c : Check α) : Check (Option α) := fun place v =>
  match v with
  | .null => .valid none
  | v => (c place v).map some

def oneOf {α : Type} (e : List Text → Expectation) (words : List (Text × α)) : Check α :=
  fun place v =>
    match v with
    | .text s => withCharacters place s fun cs =>
      match words.lookup (Text.ofChars cs) with
      | some a => .valid a
      | none => fault place (e (words.map (·.1))) v
    | v => fault place (e (words.map (·.1))) v

def listOf {α : Type} (c : Check α) : Check (List α) := fun place v =>
  match v with
  | .list vs => .all (vs.mapIdx fun i v => c (place ++ [toString i]) v)
  | v => fault place .list v

def model {α : Type} (name : String) (fields : List String → Table → Checked α) : Check α :=
  fun place v =>
    match v with
    | .table t => fields place t
    | v => fault place (.model name) v

def required {α : Type} (name : String) (c : Check α) (place : List String) (t : Table) :
    Checked α :=
  match t.get? name with
  | some v => c (place ++ [name]) v
  | none => fault (place ++ [name]) .present (.table t)

def optional {α : Type} (name : String) (c : Check α) (unset : α) (place : List String)
    (t : Table) : Checked α :=
  match t.get? name with
  | some v => c (place ++ [name]) v
  | none => .valid unset

section valid
variable {α : Type} {a : α} {c : Check α} {place : List String} {name : String} {v : Value}
  {t : Table}

theorem model_eq_valid {fields : List String → Table → Checked α} :
    model name fields place v = .valid a ↔ ∃ t, v = .table t ∧ fields place t = .valid a := by
  cases v <;> simp [model, fault]

theorem required_eq_valid : required name c place t = .valid a ↔
    ∃ v, t.get? name = some v ∧ c (place ++ [name]) v = .valid a := by
  unfold required
  cases t.get? name <;> simp [fault]

theorem optional_eq_valid {unset : α} : optional name c unset place t = .valid a ↔
    (∃ v, t.get? name = some v ∧ c (place ++ [name]) v = .valid a) ∨
      (t.get? name = none ∧ unset = a) := by
  unfold optional
  cases t.get? name <;> simp

theorem nullable_eq_valid {o : Option α} : nullable c place v = .valid o ↔
    (v = .null ∧ none = o) ∨ (v ≠ .null ∧ ∃ a, c place v = .valid a ∧ some a = o) := by
  cases v <;> simp [nullable, Checked.map_eq_valid]

theorem mem_of_oneOf_eq_valid {e : List Text → Expectation} {words : List (Text × α)}
    (h : oneOf e words place v = .valid a) : a ∈ words.map Prod.snd := by
  unfold oneOf at h
  cases v with
  | text s =>
    simp only [withCharacters] at h
    split at h
    next cs _ =>
      cases hw : words.lookup (Text.ofChars cs) with
      | none => simp [hw, fault] at h
      | some b =>
        simp only [hw, Checked.valid.injEq] at h
        obtain ⟨before, after, heq, -⟩ := List.lookup_eq_some_iff.1 hw
        simp [heq, h]
    next => cases h
  | _ => cases h

end valid

end Check

end DocComment

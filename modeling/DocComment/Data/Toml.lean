import DocComment.Data.Toml.Draft
import DocComment.Data.Toml.Moment
import DocComment.Data.Toml.Number
import DocComment.Data.Toml.Quoted

/-! Documents of TOML 1.0. `Toml.read` gives the table of a document, or the first fault of a text
that is none. Each call below takes its fuel from the length of the text. -/

namespace DocComment.Data.Toml

def skipComment (s : List Char) : Option (List Char) :=
  match s with
  | '#' :: r =>
    let (body, rest) := r.span (· != '\n')
    if body.any (isForbidden false) then none else some rest
  | _ => some s

def skipGaps : Nat → List Char → Option (List Char)
  | 0, s => some s
  | fuel + 1, s =>
    match s.dropWhile isBlankOrBreak with
    | '#' :: r => (skipComment ('#' :: r)).bind (skipGaps fuel)
    | r => some r

def words : List (List Char × Value) := [("true".toList, .bool true), ("false".toList, .bool false)]

def readScalar (s : List Char) : Except Fault (Value × List Char) :=
  match words.find? (·.1.isPrefixOf s) with
  | some (w, v) => .ok (v, s.drop w.length)
  | none =>
    match readMoment s with
    | some (some found) => .ok found
    | some none => .error .malformed
    | none => readNumber s

def readText (s : List Char) : Except Fault (Value × List Char) :=
  match readString s with
  | some (t, r) => .ok (.text t, r)
  | none => .error .malformed

mutual

/-- A value with `room` for others inside it, of which an array takes two steps and an inline table
three. -/
def readValue : Nat → Nat → List Char → Except Fault (Value × List Char)
  | 0, _, _ => .error .malformed
  | fuel + 1, room, s =>
    match s with
    | '"' :: _ => readText s
    | '\'' :: _ => readText s
    | '[' :: r =>
      if room < 2 then .error (.excess (.depth none))
      else
        match skipGaps r.length r with
        | none => .error .malformed
        | some (']' :: r) => .ok (.list [], r)
        | some r => (readItems fuel (room - 2) r).map fun (vs, r) => (.list vs, r)
    | '\x7b' :: r =>
      if room < 3 then .error (.excess (.depth none))
      else
        match r.dropWhile isBlank with
        | '\x7d' :: r => .ok (.table [], r)
        | r => (readPairs fuel (room - 3) {} r).map fun (t, r) => (.table t, r)
    | _ => readScalar s

def readItems : Nat → Nat → List Char → Except Fault (List Value × List Char)
  | 0, _, _ => .error .malformed
  | fuel + 1, room, s =>
    match readValue fuel room s with
    | .error e => .error e
    | .ok (v, r) =>
      match skipGaps r.length r with
      | some (']' :: r) => .ok ([v], r)
      | some (',' :: r) =>
        match skipGaps r.length r with
        | none => .error .malformed
        | some (']' :: r) => .ok ([v], r)
        | some r => (readItems fuel room r).map fun (vs, r) => (v :: vs, r)
      | _ => .error .malformed

def readPairs : Nat → Nat → Inline → List Char → Except Fault (Table × List Char)
  | 0, _, _, _ => .error .malformed
  | fuel + 1, room, t, s =>
    match readKey (s.length + 1) s with
    | some (key, '=' :: r) =>
      match readValue fuel room (r.dropWhile isBlank) with
      | .error e => .error e
      | .ok (v, r) =>
        match t.put key v with
        | none => .error .malformed
        | some t =>
          match r.dropWhile isBlank with
          | '\x7d' :: r => .ok (t.root, r)
          | ',' :: r => readPairs fuel room t (r.dropWhile isBlank)
          | _ => .error .malformed
    | _ => .error .malformed

end

def readPair (room : Nat) (d : Draft) (s : List Char) : Except Fault (Draft × List Char) :=
  match readKey (s.length + 1) s with
  | some (key, '=' :: r) =>
    match readValue (2 * r.length + 2) room (r.dropWhile isBlank) with
    | .error e => .error e
    | .ok (v, r) =>
      match d.put key v with
      | some d => .ok (d, r)
      | none => .error .malformed
  | _ => .error .malformed

def readHeader (d : Draft) (s : List Char) : Option (Draft × List Char) :=
  match s with
  | '[' :: '[' :: r =>
    match readKey (r.length + 1) (r.dropWhile isBlank) with
    | some (path, ']' :: ']' :: r) => (d.settle.openItem path).map (·, r)
    | _ => none
  | '[' :: r =>
    match readKey (r.length + 1) (r.dropWhile isBlank) with
    | some (path, ']' :: r) => (d.settle.openTable path).map (·, r)
    | _ => none
  | _ => none

/-- One statement: a header, a pair, or nothing before a comment. -/
def readStatement (room : Nat) (d : Draft) (s : List Char) : Except Fault (Draft × List Char) :=
  match s with
  | '[' :: _ =>
    match readHeader d s with
    | some found => .ok found
    | none => .error .malformed
  | '#' :: _ => .ok (d, s)
  | _ => readPair room d s

def readStatements (room : Nat) : Nat → Draft → List Char → Except Fault Table
  | 0, _, _ => .error .malformed
  | fuel + 1, d, s =>
    match s.dropWhile isBlank with
    | [] => .ok d.root
    | '\n' :: r => readStatements room fuel d r
    | s =>
      match readStatement room d s with
      | .error e => .error e
      | .ok (d, r) =>
        match skipComment (r.dropWhile isBlank) with
        | some [] => .ok d.root
        | some ('\n' :: r) => readStatements room fuel d r
        | _ => .error .malformed

/-- The table of a document whose lines end in line feeds. How deep its values may lie hangs on the
caller, whose stack the reading shares. -/
def read (room : Nat) (s : List Char) : Except Fault Table :=
  readStatements room (s.length + 1) {} s

section digits
variable {s : List Char}

theorem find?_words_of_isDigit (hs : ∀ c ∈ s, c.isDigit = true) :
    words.find? (·.1.isPrefixOf s) = none := by
  cases s with
  | nil => rfl
  | cons c r =>
    have hne : ∀ d : Char, d.isDigit = false → (d == c) = false := by
      intro d hd
      rw [beq_eq_false_iff_ne]
      rintro rfl
      exact Bool.false_ne_true (hd.symm.trans (hs d List.mem_cons_self))
    have hword : ∀ (d : Char) (w : List Char), d.isDigit = false →
        (d :: w).isPrefixOf (c :: r) = false := by
      intro d w hd
      rw [List.isPrefixOf, hne d hd, Bool.false_and]
    have htrue : ("true".toList).isPrefixOf (c :: r) = false := hword _ _ rfl
    have hfalse : ("false".toList).isPrefixOf (c :: r) = false := hword _ _ rfl
    simp only [words, List.find?_cons, htrue, hfalse, List.find?_nil]

theorem readScalar_of_isDigit (hs : ∀ c ∈ s, c.isDigit = true) : readScalar s = readNumber s := by
  rw [readScalar, find?_words_of_isDigit hs, readMoment_of_isDigit hs]

theorem readValue_of_isDigit (fuel room : Nat) (hs : ∀ c ∈ s, c.isDigit = true) :
    readValue (fuel + 1) room s = readNumber s := by
  rw [readValue]
  · exact readScalar_of_isDigit hs
  -- no digit opens a string, an array or a table
  all_goals
    rintro _ rfl
    exact absurd (hs _ List.mem_cons_self) (by decide)

theorem dropWhile_isBlank_of_isDigit (hs : ∀ c ∈ s, c.isDigit = true) :
    s.dropWhile isBlank = s := by
  cases s with
  | nil => rfl
  | cons c r =>
    refine List.dropWhile_cons_of_neg ?_
    have hc := hs c List.mem_cons_self
    unfold isBlank
    rw [Bool.or_eq_true, beq_iff_eq, beq_iff_eq]
    rintro (rfl | rfl) <;> cases hc

/-- A number of more digits than are read is not passed over as malformed. -/
theorem read_of_long (room : Nat) (hs : ∀ c ∈ s, c.isDigit = true) (hz : s.head? ≠ some '0')
    (hlong : Text.digitLimit < s.length) :
    read room ('x' :: '=' :: s) = .error (.excess (.digits s.length)) := by
  have hkey : ∀ n, readKey (n + 1) ('x' :: '=' :: s) = some ([("x" : Text)], '=' :: s) :=
    fun _ => rfl
  have hpair : readPair room {} ('x' :: '=' :: s) = .error (.excess (.digits s.length)) := by
    rw [readPair, hkey]
    simp only [dropWhile_isBlank_of_isDigit hs, readValue_of_isDigit _ _ hs,
      readNumber_of_long hs hz hlong]
  have hstatement :
      readStatement room {} ('x' :: '=' :: s) = .error (.excess (.digits s.length)) := hpair
  have hblank : List.dropWhile isBlank ('x' :: '=' :: s) = 'x' :: '=' :: s := rfl
  rw [read, readStatements, hblank]
  split
  next h => cases h
  next h => cases h
  next => rw [hstatement]

end digits

end DocComment.Data.Toml

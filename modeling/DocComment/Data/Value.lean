import DocComment.Data.Binary64
import DocComment.Text.Basic

/-! Values of payloads and configuration files: one type for both formats, with tables as lists of
entries. Of two entries with one key the first counts. -/

namespace DocComment.Data

inductive MomentKind
  | date | time | datetime
  deriving DecidableEq, Inhabited

/-- `moment` is a date or a time of day in its written form. -/
inductive Value
  | null
  | bool (b : Bool)
  | int (n : Int)
  | float (x : Binary64)
  | text (s : Text)
  | list (items : List Value)
  | table (entries : List (Text × Value))
  | moment (kind : MomentKind) (written : String)
  deriving Inhabited

abbrev Table := List (Text × Value)

namespace Value

def isNull : Value → Bool
  | .null => true
  | _ => false

def typeWord : Value → String
  | .null => "NoneType"
  | .bool _ => "bool"
  | .int _ => "int"
  | .float _ => "float"
  | .text _ => "str"
  | .list _ => "list"
  | .table _ => "dict"
  | .moment .date _ => "date"
  | .moment .time _ => "time"
  | .moment .datetime _ => "datetime"

end Value

namespace Table

def get? (t : Table) (k : Text) : Option Value := t.lookup k

theorem get?_cons (e : Text × Value) (t : Table) (k : Text) :
    get? (e :: t) k = if k = e.1 then some e.2 else get? t k := by
  unfold get?
  rw [List.lookup_cons]
  by_cases hk : k = e.1
  · simp [hk]
  · simp [hk, beq_false_of_ne hk]

def set (t : Table) (k : Text) (v : Value) : Table :=
  match t with
  | [] => [(k, v)]
  | (k', v') :: r => if k = k' then (k, v) :: r else (k', v') :: set r k v

theorem get?_set (t : Table) (k : Text) (v : Value) (j : Text) :
    (t.set k v).get? j = if j = k then some v else t.get? j := by
  induction t with
  | nil => rw [set, get?_cons]
  | cons e r ih =>
    unfold set
    by_cases hk : k = e.1
    · by_cases hj : j = e.1 <;> simp [get?_cons, hk, hj]
    · by_cases hj : j = k
      · subst hj
        simp [get?_cons, hk, ih]
      · simp [get?_cons, hk, hj, ih]

def erase (t : Table) (k : Text) : Table := t.filter (·.1 != k)

/-- The value under a key that is there and not null. -/
def given? (t : Table) (k : Text) : Option Value :=
  (t.find? fun e => e.1 == k && !e.2.isNull).map (·.2)

theorem given?_cons (e : Text × Value) (t : Table) (k : Text) :
    given? (e :: t) k = if k = e.1 ∧ e.2.isNull = false then some e.2 else given? t k := by
  unfold given?
  rw [List.find?_cons]
  by_cases hk : k = e.1
  · cases hn : e.2.isNull <;> simp [hk]
  · simp [hk, beq_false_of_ne (Ne.symm hk)]

theorem given?_set {v : Value} (hv : v.isNull = false) (t : Table) (k j : Text) :
    (t.set k v).given? j = if j = k then some v else t.given? j := by
  induction t with
  | nil => simp [set, given?_cons, hv]
  | cons e r ih =>
    unfold set
    by_cases hk : k = e.1
    · by_cases hj : j = e.1 <;> simp [given?_cons, hk, hj, hv]
    · by_cases hj : j = k
      · subst hj
        simp [given?_cons, hk, ih]
      · simp [given?_cons, hk, hj, ih]

/-- `base` with all that `upper` gives; a null in `upper` gives nothing. -/
def merge (upper base : Table) : Table :=
  upper.foldr (fun e t => if e.2.isNull then t else set t e.1 e.2) base

theorem merge_cons (e : Text × Value) (r base : Table) :
    merge (e :: r) base = if e.2.isNull then merge r base else (merge r base).set e.1 e.2 := rfl

theorem get?_merge (upper base : Table) (k : Text) :
    (merge upper base).get? k = (upper.given? k <|> base.get? k) := by
  induction upper with
  | nil => rfl
  | cons e r ih =>
    rw [merge_cons, given?_cons]
    cases hn : e.2.isNull with
    | true => simpa using ih
    | false => by_cases hk : k = e.1 <;> simp [get?_set, ih, hk]

/-- A null that a merge leaves gives nothing in its turn. -/
theorem given?_merge (upper base : Table) (k : Text) :
    (merge upper base).given? k = (upper.given? k <|> base.given? k) := by
  induction upper with
  | nil => rfl
  | cons e r ih =>
    rw [merge_cons, given?_cons]
    cases hn : e.2.isNull with
    | true => simpa using ih
    | false => by_cases hk : k = e.1 <;> simp [given?_set hn, ih, hk]

end Table

end DocComment.Data

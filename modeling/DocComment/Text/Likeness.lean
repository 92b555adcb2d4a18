import DocComment.Text.Basic

/-! How like two texts are: the longest stretch that both have is matched first, then what stands
before it in both and what stands behind it in both, in the same way. -/

namespace DocComment.Text

def commonStart : Text → Text → Nat
  | a :: as, b :: bs => if a = b then commonStart as bs + 1 else 0
  | _, _ => 0

/-- Where in `b` a start of `a` is found, and its length: the longest one that is found, in its
first place. `j` is where `b` starts. -/
def longestStart (a : Text) (j : Nat) : Text → Nat × Nat
  | [] => (j, 0)
  | c :: r =>
    let here := commonStart a (c :: r)
    let (k, n) := longestStart a (j + 1) r
    if n ≤ here then (j, here) else (k, n)

structure Stretch where
  left : Nat
  right : Nat
  size : Nat
  deriving DecidableEq, Inhabited

/-- The longest stretch of both texts; the first in the left one counts, then the first in the right
one. `i` is where the left one starts. -/
def longestStretch (b : Text) (i : Nat) : Text → Stretch
  | [] => ⟨i, 0, 0⟩
  | c :: r =>
    let (j, n) := longestStart (c :: r) 0 b
    let later := longestStretch b (i + 1) r
    if later.size ≤ n then ⟨i, j, n⟩ else later

def matched (a b : Text) : Nat :=
  match longestStretch b 0 a with
  | ⟨i, j, n⟩ =>
    if 0 < n ∧ i < a.length then
      matched (a.take i) (b.take j) + n + matched (a.drop (i + n)) (b.drop (j + n))
    else 0
termination_by a.length
decreasing_by
  · simp only [List.length_take]; omega
  · simp only [List.length_drop]; omega

def isLike (word known : Text) : Bool :=
  3 * (known.length + word.length) ≤ 10 * matched known word

/-- Puts the text before the other that is more like `word`; of two alike the later one. -/
def likerThan (word a b : Text) : Bool :=
  let share := fun t : Text => matched t word
  let total := fun t : Text => t.length + word.length
  share b * total a < share a * total b ||
    (share b * total a == share a * total b && precedes b a)

/-- The known texts that are most like `word`, three at most. -/
def mostLike (word : Text) (known : List Text) : List Text :=
  ((known.filter (isLike word)).mergeSort (likerThan word)).take 3

end DocComment.Text

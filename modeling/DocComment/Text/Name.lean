import DocComment.Text.Basic

/-! Dotted names and bracketed names: `java.io.IOException` has the simple name `IOException`, and
the type parameter `T` is written `<T>`. -/

namespace DocComment.Text

def afterLast (sep : CodePoint) (s : Text) : Text :=
  (s.reverse.takeWhile (· != sep)).reverse

def simpleName (s : Text) : Text := afterLast '.' s

def angled (s : Text) : Text := .char '<' :: (s ++ [.char '>'])

/-- A text of three characters or more between angle brackets. -/
def isAngled (s : Text) : Bool :=
  s.head? == some (.char '<') && s.getLast? == some (.char '>') && 2 < s.length

def dropAts (s : Text) : Text := s.dropWhile (· == .char '@')

theorem angled_inj {a b : Text} : angled a = angled b ↔ a = b := by
  constructor
  · intro h
    exact List.append_cancel_right (List.cons.inj h).2
  · rintro rfl; rfl

theorem isAngled_angled {s : Text} : isAngled (angled s) = true ↔ s ≠ [] := by
  cases s <;> simp [isAngled, angled, List.getLast?_cons]

theorem angled_ne_open {s : Text} : angled s ≠ ("<" : Text) := by
  intro h
  have := congrArg List.length h
  simp [angled, ofString, ofChars] at this

theorem afterLast_of_not_mem {sep : CodePoint} {s : Text} (h : sep ∉ s) :
    afterLast sep s = s := by
  have : ∀ l : Text, sep ∉ l → l.takeWhile (· != sep) = l := by
    intro l
    induction l with
    | nil => simp
    | cons c r ih =>
      intro hl
      rw [List.mem_cons, not_or] at hl
      have hc : (c != sep) = true := bne_iff_ne.2 (Ne.symm hl.1)
      rw [List.takeWhile_cons, hc, if_pos rfl, ih hl.2]
  rw [afterLast, this _ (by simpa using h), List.reverse_reverse]

theorem not_mem_afterLast (sep : CodePoint) (s : Text) : sep ∉ afterLast sep s := by
  have := List.all_eq_true.1 (List.all_takeWhile (p := (· != sep)) (l := s.reverse)) sep
  intro h
  simpa using this (List.mem_reverse.1 h)

theorem simpleName_eq_self_iff {s : Text} : simpleName s = s ↔ .char '.' ∉ s := by
  constructor
  · intro h hm
    rw [← h] at hm
    exact not_mem_afterLast (.char '.') s hm
  · intro h
    exact afterLast_of_not_mem h

end DocComment.Text

import DocComment.Proofs.Settling
import Mathlib.Data.List.Induction
import Mathlib.Order.Bounds.Basic

/-! The place of a new tag. Its anchors are the tags that rank lower, and those of its own kind that
document a leading name. It goes to the least place that has all of them in front of it
(`insertionIndex_least`), which is right behind the first anchor met from the end
(`pastLast_eq_sub_findIdx`). Other tags move that place along and do nothing else to it
(`pastLast_insertIdx_of_not`). -/

namespace DocComment

section pastLast
variable {α : Type} {p : α → Bool} {x : α} {l : List α}

theorem pastLast_insertIdx_of_not (hx : p x = false) (j : Nat) : pastLast p (l.insertIdx j x) =
    if j < pastLast p l then pastLast p l + 1 else pastLast p l := by
  induction l generalizing j with
  | nil => cases j <;> simp [pastLast, hx]
  | cons a l ih =>
    cases j with
    | zero =>
      rw [List.insertIdx_zero, pastLast_cons x]
      cases pastLast p (a :: l) <;> simp [hx]
    | succ j =>
      rw [List.insertIdx_succ_cons, pastLast_cons, pastLast_cons, ih]
      cases pastLast p l with
      | zero => by_cases ha : p a = true <;> simp [ha]
      | succ n => by_cases hj : j < n + 1 <;> simp [hj]

theorem pastLast_concat (a : α) (l : List α) :
    pastLast p (l ++ [a]) = if p a then l.length + 1 else pastLast p l := by
  by_cases ha : p a = true
  · have hle : pastLast p (l ++ [a]) ≤ l.length + 1 := by simpa using pastLast_le (p := p) (l ++ [a])
    have hge : l.length < pastLast p (l ++ [a]) :=
      pastLast_le_iff.1 (Nat.le_refl _) l.length a (by simp) ha
    rw [if_pos ha]
    omega
  · have hend : l ++ [a] = l.insertIdx l.length a := by simp
    have hle : ¬ l.length < pastLast p l := Nat.not_lt.2 (pastLast_le l)
    rw [if_neg ha, hend, pastLast_insertIdx_of_not (by simpa using ha), if_neg hle]

theorem pastLast_eq_sub_findIdx : pastLast p l = l.length - l.reverse.findIdx p := by
  induction l using List.reverseRecOn with
  | nil => rfl
  | append_singleton l a ih =>
    rw [pastLast_concat, List.reverse_append, List.reverse_singleton, List.singleton_append,
      List.findIdx_cons, List.length_append, List.length_singleton]
    by_cases ha : p a = true
    · simp [ha]
    · simp [ha, ih]

end pastLast

def IsAnchor (new : TagKind) (leading : Option (List Text)) (t : Tag) : Prop :=
  t.kind.rank < new.rank ∨ ∃ names a, leading = some names ∧ a ∈ names ∧
    t.kind.canonical = new.canonical ∧ t.argument = some a

/-- A place among the tags, or behind them, with all anchors in front of it. -/
structure Admissible (tags : List Tag) (new : TagKind) (leading : Option (List Text)) (k : Nat) :
    Prop where
  le_length : k ≤ tags.length
  behind : ∀ i t, tags[i]? = some t → IsAnchor new leading t → i < k

variable {tags : List Tag} {new : TagKind} {leading : Option (List Text)} {names names' : List Text}
  {t : Tag}

theorem anchors_iff : anchors new leading t = true ↔ IsAnchor new leading t := by
  unfold anchors IsAnchor
  cases leading with
  | none => simp
  | some names =>
    cases t.argument with
    | none => simp
    | some a => simp [and_comm, @eq_comm _ new.canonical]

instance (new : TagKind) (leading : Option (List Text)) (t : Tag) :
    Decidable (IsAnchor new leading t) := decidable_of_iff _ anchors_iff

theorem isLeast_insertionIndex :
    IsLeast {k | Admissible tags new leading k} (insertionIndex tags new leading) := by
  constructor
  · refine ⟨insertionIndex_le .., fun i t hi ht => ?_⟩
    exact pastLast_le_iff.1 (Nat.le_refl _) i t hi (anchors_iff.2 ht)
  · intro k hk
    exact pastLast_le_iff.2 fun i t hi ht => hk.behind i t hi (anchors_iff.1 ht)

theorem isAnchor_none_iff : IsAnchor new none t ↔ IsAnchor new (some []) t := by
  simp [IsAnchor]

theorem IsAnchor.mono (h : names ⊆ names') (ht : IsAnchor new (some names) t) :
    IsAnchor new (some names') t := by
  rcases ht with hlt | ⟨_, a, hnames, ha, hsame⟩
  · exact .inl hlt
  · cases hnames
    exact .inr ⟨names', a, rfl, h ha, hsame⟩

theorem insertionIndex_none : insertionIndex tags new none = insertionIndex tags new (some []) := by
  refine pastLast_congr fun t _ => ?_
  rw [Bool.eq_iff_iff, anchors_iff, anchors_iff, isAnchor_none_iff]

theorem insertionIndex_mono (h : names ⊆ names') :
    insertionIndex tags new (some names) ≤ insertionIndex tags new (some names') :=
  pastLast_mono fun _ ht => anchors_iff.2 (.mono h (anchors_iff.1 ht))

theorem insertionIndex_insertIdx (ht : ¬ IsAnchor new leading t) (j : Nat) :
    insertionIndex (tags.insertIdx j t) new leading =
      if j < insertionIndex tags new leading then insertionIndex tags new leading + 1
      else insertionIndex tags new leading := by
  refine pastLast_insertIdx_of_not ?_ j
  rw [← Bool.not_eq_true, anchors_iff]
  exact ht

/-- A new tag goes to the least place that has all its anchors in front of it, right behind the last
one of them. It is the same place for no leading names as for an empty set of them, and never an
earlier one for more of them. With a tag among the others that is no anchor, it is the same place
still, counted with that tag where it stands in front. -/
theorem insertionIndex_least (tags : List Tag) (new : TagKind) (leading : Option (List Text)) :
    IsLeast {k | Admissible tags new leading k} (insertionIndex tags new leading) ∧
    insertionIndex tags new leading =
      tags.length - tags.reverse.findIdx (fun t => decide (IsAnchor new leading t)) ∧
    insertionIndex tags new none = insertionIndex tags new (some []) ∧
    (∀ names names', names ⊆ names' →
      insertionIndex tags new (some names) ≤ insertionIndex tags new (some names')) ∧
    ∀ t j, ¬ IsAnchor new leading t → insertionIndex (tags.insertIdx j t) new leading =
      if j < insertionIndex tags new leading then insertionIndex tags new leading + 1
      else insertionIndex tags new leading := by
  have hsame : anchors new leading = fun t => decide (IsAnchor new leading t) := by
    funext t
    rw [Bool.eq_iff_iff, anchors_iff, decide_eq_true_iff]
  refine ⟨isLeast_insertionIndex, ?_, insertionIndex_none, fun _ _ => insertionIndex_mono,
    fun t j ht => insertionIndex_insertIdx ht j⟩
  rw [← hsame]
  exact pastLast_eq_sub_findIdx

/-- Out of order, with an exception under either name of its kind and a tag of no known kind. -/
def jumbled : List Tag :=
  [{ kind := .throws, fragments := [.identifier "java.io.IOException"] },
    { kind := .see },
    { kind := .param, fragments := [.identifier "b"] },
    { kind := .exception, fragments := [.identifier "Lost"] },
    { kind := .other, label := "apiNote" }]

/-- The param tag is the last anchor of an exception that follows `IOException`, and the tag of
`Lost` is the last one where that name leads too. -/
theorem insertionIndex_jumbled_least :
    IsLeast {k | Admissible jumbled .throws (some ["IOException"]) k} 3 ∧
    insertionIndex jumbled .throws (some ["IOException"]) <
      insertionIndex jumbled .throws (some ["Lost", "IOException"]) ∧
    insertionIndex (jumbled.insertIdx 1 { kind := .since }) .throws (some ["IOException"]) = 4 ∧
    insertionIndex (jumbled.insertIdx 3 { kind := .since }) .throws (some ["IOException"]) = 3 := by
  obtain ⟨hleast, -, -, hmono, hinsert⟩ :=
    insertionIndex_least jumbled .throws (some ["IOException"])
  have hindex : insertionIndex jumbled .throws (some ["IOException"]) = 3 := by decide
  have hother : ¬ IsAnchor .throws (some ["IOException"]) { kind := .since } := by decide
  rw [hindex] at hleast
  refine ⟨hleast, Nat.lt_of_le_of_ne (hmono ["IOException"] _ (by simp)) (by decide), ?_, ?_⟩
  · rw [hinsert _ _ hother, hindex, if_pos (by decide)]
  · rw [hinsert _ _ hother, hindex, if_neg (by decide)]

end DocComment

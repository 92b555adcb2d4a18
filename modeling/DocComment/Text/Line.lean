import DocComment.Text.Basic

/-! Lines of a text. `lines` ends a line at any of Unicode's line breaks and yields no empty line
after the last break; `pieces` cuts at one member only and keeps every piece. -/

namespace DocComment.Text

def isLineBreak (n : Nat) : Bool :=
  (10 ≤ n && n ≤ 13) || (28 ≤ n && n ≤ 30) || n == 0x85 || n == 0x2028 || n == 0x2029

/-- The lines of a text without their ends; a carriage return and the line feed after it end one
line together. -/
def lines : Text → List Text
  | [] => []
  | .char '\r' :: .char '\n' :: r => [] :: lines r
  | c :: r =>
    if isLineBreak c.code then [] :: lines r
    else match lines r with
      | [] => [[c]]
      | l :: ls => (c :: l) :: ls

/-- The stretches between the members equal to `sep`: one more than there are of those. -/
def pieces {α : Type} [DecidableEq α] (sep : α) : List α → List (List α)
  | [] => [[]]
  | c :: r =>
    if c = sep then [] :: pieces sep r
    else match pieces sep r with
      | [] => [[c]]
      | l :: ls => (c :: l) :: ls

/-- Every line end of a file, `\r\n` and a lone `\r` included, read as `\n`. -/
def unifyBreaks : List Char → List Char
  | [] => []
  | '\r' :: '\n' :: r => '\n' :: unifyBreaks r
  | c :: r => (if c = '\r' then '\n' else c) :: unifyBreaks r

theorem unifyBreaks_of_not_mem {s : List Char} (h : '\r' ∉ s) : unifyBreaks s = s := by
  induction s with
  | nil => rfl
  | cons c r ih =>
    obtain ⟨hc, hr⟩ := not_or.1 (mt List.mem_cons.2 h)
    have hne : c ≠ '\r' := fun heq => hc heq.symm
    rw [unifyBreaks, if_neg hne, ih hr]
    rintro r rfl rfl
    exact hne rfl

theorem lines_eq_singleton {s : Text} (hs : s ≠ [])
    (h : ∀ c ∈ s, isLineBreak c.code = false) : lines s = [s] := by
  induction s with
  | nil => exact absurd rfl hs
  | cons c r ih =>
    have hc : isLineBreak c.code = false := h c (by simp)
    have hr : c ≠ .char '\r' := by rintro rfl; exact absurd hc (by decide)
    unfold lines
    split
    · simp_all
    · simp_all
    · rename_i c' r' _ heq
      obtain ⟨rfl, rfl⟩ := List.cons.inj heq
      cases r with
      | nil => simp [hc, lines]
      | cons d r => simp [hc, ih (by simp) (fun x hx => h x (List.mem_cons_of_mem _ hx))]

theorem isLineBreak_of_mem_lines {s l : Text} (hl : l ∈ lines s) {c : CodePoint} (hc : c ∈ l) :
    isLineBreak c.code = false := by
  fun_induction lines s generalizing l with
  | case1 => cases hl
  | case2 r ih =>
    rcases List.mem_cons.1 hl with rfl | hl
    · cases hc
    · exact ih hl hc
  | case3 d r _ _ ih =>
    rcases List.mem_cons.1 hl with rfl | hl
    · cases hc
    · exact ih hl hc
  | case4 d r _ hd heq ih =>
    cases List.mem_singleton.1 hl
    cases List.mem_singleton.1 hc
    simpa using hd
  | case5 d r _ hd first rest heq ih =>
    rw [heq] at ih
    rcases List.mem_cons.1 hl with rfl | hl
    · rcases List.mem_cons.1 hc with rfl | hc
      · simpa using hd
      · exact ih List.mem_cons_self hc
    · exact ih (List.mem_cons_of_mem _ hl) hc

end DocComment.Text

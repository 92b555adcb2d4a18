import DocComment.Tag
import Mathlib.Data.List.DropRight

/-! The kind that a written name selects. Blanks come off the name first and at-signs then, so the
at-signs do not count, except where a blank comes behind them (`TagKind.ofName_dropAts`): then the
name selects no known kind (`TagKind.ofName_of_blank`). -/

namespace DocComment

namespace Text

variable {c : CodePoint} {s : Text}

theorem not_isBlank_at : isBlank (CodePoint.char '@').code = false := by decide

theorem dropAts_dropAts : s.dropAts.dropAts = s.dropAts := List.dropWhile_idempotent _ s

theorem dropAts_cons_at : dropAts (.char '@' :: s) = s.dropAts :=
  List.dropWhile_cons_of_pos (beq_self_eq_true _)

theorem dropAts_cons_of_ne (hc : c ≠ .char '@') : dropAts (c :: s) = c :: s :=
  List.dropWhile_cons_of_neg (by simpa using hc)

theorem dropAts_of_head?_ne (h : s.head? ≠ some (.char '@')) : s.dropAts = s := by
  cases s with
  | nil => rfl
  | cons c s => exact dropAts_cons_of_ne fun hc => h (congrArg some hc)

def trimEnd (s : Text) : Text := s.rdropWhile (isBlank ·.code)

theorem trimEnd_cons_of_not_isBlank (hc : isBlank c.code = false) :
    trimEnd (c :: s) = c :: s.trimEnd := by
  have hlast : [c].dropWhile (isBlank ·.code) = [c] :=
    List.dropWhile_cons_of_neg (by simp [hc])
  unfold trimEnd List.rdropWhile
  rw [List.reverse_cons, List.dropWhile_append, hlast]
  split
  next hnil => simp [List.isEmpty_iff.1 hnil]
  next => simp

theorem trimEnd_cons_cases (c : CodePoint) (s : Text) :
    trimEnd (c :: s) = [] ∨ ∃ r, trimEnd (c :: s) = c :: r := by
  have hprefix : trimEnd (c :: s) <+: c :: s := List.rdropWhile_prefix _ _
  rcases List.prefix_cons_iff.1 hprefix with hnil | ⟨r, hr, -⟩
  · exact .inl hnil
  · exact .inr ⟨r, hr⟩

theorem trim_cons_of_isBlank (hc : isBlank c.code = true) : trim (c :: s) = s.trim := by
  have hdrop : (c :: s).dropWhile (isBlank ·.code) = s.dropWhile (isBlank ·.code) :=
    List.dropWhile_cons_of_pos hc
  rw [trim, trimBy, hdrop]
  rfl

theorem trim_cons_of_not_isBlank (hc : isBlank c.code = false) :
    trim (c :: s) = trimEnd (c :: s) := by
  have hdrop : (c :: s).dropWhile (isBlank ·.code) = c :: s :=
    List.dropWhile_cons_of_neg (by simp [hc])
  rw [trim, trimBy, hdrop]
  rfl

theorem toLower_of_isBlank {c : Char} (hc : isBlank c.toNat = true) : c.toLower = c := by
  have hcase : ¬ (c.val ≥ 'A'.val ∧ c.val ≤ 'Z'.val) := by
    rintro ⟨hge, hle⟩
    have hge' : 65 ≤ c.toNat := hge
    have hle' : c.toNat ≤ 90 := hle
    simp only [isBlank, Bool.or_eq_true, Bool.and_eq_true, decide_eq_true_eq, beq_iff_eq] at hc
    omega
  exact dif_neg hcase

theorem lower_cons_of_isBlank (hc : isBlank c.code = true) : lower (c :: s) = c :: s.lower := by
  cases c with
  | half n => rfl
  | char c => exact congrArg (fun x => .char x :: s.lower) (toLower_of_isBlank hc)

/-- At-signs are no blanks: the two ends are cleared independently. -/
theorem dropAts_trimEnd : s.trimEnd.dropAts = s.dropAts.trimEnd := by
  induction s with
  | nil => rfl
  | cons c s ih =>
    by_cases hc : c = .char '@'
    · rw [hc, trimEnd_cons_of_not_isBlank not_isBlank_at, dropAts_cons_at, dropAts_cons_at, ih]
    · rw [dropAts_cons_of_ne hc]
      rcases trimEnd_cons_cases c s with hnil | ⟨r, hr⟩
      · rw [hnil]
        rfl
      · rw [hr, dropAts_cons_of_ne hc]

theorem dropAts_trim_of_at (h : s.head? = some (.char '@')) :
    s.trim.dropAts = s.dropAts.trimEnd := by
  obtain ⟨r, rfl⟩ : ∃ r, s = .char '@' :: r := by
    cases s with
    | nil => cases h
    | cons c r => exact ⟨r, by rw [Option.some.inj h]⟩
  rw [trim_cons_of_not_isBlank not_isBlank_at, dropAts_trimEnd]

end Text

namespace TagKind

variable {name rest : Text} {c : CodePoint}

@[simp] theorem ofName_word (k : TagKind) : ofName k.word = k := by
  cases k <;> rfl

theorem word_ne_nil (k : TagKind) : (k.word : Text) ≠ [] := by
  cases k <;> decide

theorem dropAts_word (k : TagKind) : Text.dropAts k.word = k.word := by
  cases k <;> rfl

theorem head?_word (k : TagKind) :
    (Text.ofString k.word).head?.any (Text.isBlank ·.code) = false := by
  cases k <;> decide

theorem ofName_congr {n m : Text} (h : n.trim.dropAts = m.trim.dropAts) : ofName n = ofName m := by
  simp only [ofName, h]

theorem ofName_cons_of_isBlank (hc : Text.isBlank c.code = true) : ofName (c :: rest) = ofName rest :=
  ofName_congr (by rw [Text.trim_cons_of_isBlank hc])

theorem ofName_eq_other_of_isBlank (h : name.trim.dropAts = c :: rest)
    (hc : Text.isBlank c.code = true) : ofName name = .other := by
  have hnone : (named.find? fun k => k.word = name.trim.dropAts.lower) = none := by
    refine List.find?_eq_none.2 fun k _ hk => ?_
    have hhead := head?_word k
    rw [of_decide_eq_true hk, h, Text.lower_cons_of_isBlank hc, List.head?_cons, Option.any_some,
      hc] at hhead
    cases hhead
  rw [ofName, hnone]
  rfl

/-- A blank behind the at-signs hides the name from a reader who looks for blanks first. -/
theorem ofName_of_blank (hat : name.head? = some (.char '@')) (hname : name.dropAts = c :: rest)
    (hc : Text.isBlank c.code = true) : ofName name = .other := by
  have hend : name.trim.dropAts = Text.trimEnd (c :: rest) := by
    rw [Text.dropAts_trim_of_at hat, hname]
  rcases Text.trimEnd_cons_cases c rest with hnil | ⟨r, hr⟩
  · rw [ofName, hend, hnil]
    rfl
  · exact ofName_eq_other_of_isBlank (hend.trans hr) hc

/-- At-signs do not count for the kind where no blank comes behind them. -/
theorem ofName_dropAts (h : name.head? = some (.char '@') →
    ∀ c rest, name.dropAts = c :: rest → Text.isBlank c.code = false) :
    ofName name.dropAts = ofName name := by
  by_cases hat : name.head? = some (.char '@')
  · refine ofName_congr ?_
    rw [Text.dropAts_trim_of_at hat]
    cases hname : name.dropAts with
    | nil => rfl
    | cons c rest =>
      rw [Text.trim_cons_of_not_isBlank (h hat c rest hname), Text.dropAts_trimEnd, ← hname,
        Text.dropAts_dropAts]
  · rw [Text.dropAts_of_head?_ne hat]

end TagKind

end DocComment

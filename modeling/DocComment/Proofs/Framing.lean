import DocComment.Comment
import Mathlib.Data.List.Basic

/-! The frame around a comment. Cut at its line feeds, the text of a block has `/**` first and ` */`
last. Each line of the summary and each tag has one star, so the lines between are well formed where
no tag spans several; else exactly where the stars of its further lines are part of the tag
(`Block.isFrame_iff`). -/

namespace DocComment

abbrev lineFeed : CodePoint := .char '\n'

def starred (line : Text) : Text := if line = [] then " *" else " * " ++ line

/-- A line that shows a star: alone, or with a blank and what is said behind it. -/
def IsStarred (line : Text) : Prop := line = (" *" : String) ∨ (" * " : Text) <+: line

instance (line : Text) : Decidable (IsStarred line) :=
  inferInstanceAs (Decidable (line = (" *" : String) ∨ (" * " : Text) <+: line))

/-- The lines of a comment around `inner`. No line comes after the last line feed. -/
def enclosed (inner : List Text) : List Text :=
  ("/**" : Text) :: (inner ++ [(" */" : Text), []])

/-- The pieces of a text between its line feeds make a comment. -/
def IsFrame (pieces : List Text) : Prop :=
  ∃ inner, pieces = enclosed inner ∧ ∀ line ∈ inner, IsStarred line

section splitOn
variable {α : Type} [DecidableEq α] {a : α} {s t : List α}

theorem splitOn_append_of_not_mem (h : a ∉ s) :
    (s ++ t).splitOn a = (t.splitOn a).modifyHead (s ++ ·) := by
  induction s with
  | nil => exact (List.modifyHead_id ▸ rfl)
  | cons b s ih =>
    obtain ⟨hb, hs⟩ := not_or.1 (mt List.mem_cons.2 h)
    have hne : (b == a) = false := by simpa using Ne.symm hb
    rw [List.cons_append, List.splitOn_cons_eq_if_modifyHead, hne, ih hs]
    simp [Function.comp_def]

theorem tail_splitOn_of_not_mem (h : a ∉ s) : (s.splitOn a).tail = [] := by
  rw [List.splitOn_eq_singleton h, List.tail_cons]

end splitOn

theorem framedLine_eq (line : Text) : framedLine line = starred line ++ [lineFeed] := by
  unfold framedLine starred
  split <;> rfl

theorem splitOn_framed (ls : List Text) : (framed ls).splitOn lineFeed =
    enclosed (ls.flatMap fun line => (starred line).splitOn lineFeed) := by
  have hbody : ∀ rest : Text, (ls.flatMap framedLine ++ rest).splitOn lineFeed =
      (ls.flatMap fun line => (starred line).splitOn lineFeed) ++ rest.splitOn lineFeed := by
    intro rest
    induction ls with
    | nil => rfl
    | cons line ls ih =>
      rw [List.flatMap_cons, framedLine_eq, List.append_assoc, List.append_assoc,
        List.singleton_append, List.splitOn_append_cons_self, ih, List.flatMap_cons,
        List.append_assoc]
  have hopen : framed ls =
      ("/**" : Text) ++ lineFeed :: (ls.flatMap framedLine ++ (" */\n" : Text)) := by
    rw [framed, List.append_assoc]
    rfl
  rw [hopen, List.splitOn_append_cons_self_of_not_mem (by decide), hbody]
  rfl

theorem splitOn_framed_of_oneLine {ls : List Text} (h : ∀ line ∈ ls, lineFeed ∉ line) :
    (framed ls).splitOn lineFeed = enclosed (ls.map starred) := by
  have hsplit : ∀ line ∈ ls, (starred line).splitOn lineFeed = [starred line] := by
    intro line hl
    refine List.splitOn_eq_singleton ?_
    unfold starred
    split
    · decide
    · exact List.not_mem_append (by decide) (h line hl)
  rw [splitOn_framed, List.flatMap_congr hsplit, List.map_eq_flatMap]

theorem isFrame_enclosed_iff {inner : List Text} :
    IsFrame (enclosed inner) ↔ ∀ line ∈ inner, IsStarred line := by
  constructor
  · rintro ⟨inner', heq, h⟩
    rw [List.append_cancel_right (List.cons.inj heq).2]
    exact h
  · intro h
    exact ⟨inner, rfl, h⟩

theorem isStarred_splitOn_iff {line : Text} : (∀ l ∈ (starred line).splitOn lineFeed, IsStarred l) ↔
    ∀ l ∈ (line.splitOn lineFeed).tail, IsStarred l := by
  unfold starred
  split
  next hnil =>
    subst hnil
    decide
  next =>
    obtain ⟨first, rest, heq⟩ := List.exists_cons_of_ne_nil (List.splitOn_ne_nil lineFeed line)
    have hfirst : IsStarred (" * " ++ first) := .inr (List.prefix_append _ _)
    rw [splitOn_append_of_not_mem (by decide), heq, List.modifyHead_cons, List.forall_mem_cons,
      List.tail_cons]
    exact and_iff_right hfirst

theorem isFrame_framed_iff {ls : List Text} : IsFrame ((framed ls).splitOn lineFeed) ↔
    ∀ line ∈ ls, ∀ l ∈ (line.splitOn lineFeed).tail, IsStarred l := by
  rw [splitOn_framed, isFrame_enclosed_iff, List.forall_mem_flatMap]
  exact forall₂_congr fun _ _ => isStarred_splitOn_iff

namespace Tag

variable {c : CodePoint}

theorem mem_append_iff {acc : Text × Text} {f : Fragment} (hc : c ≠ .char ' ') :
    c ∈ (append acc f).1 ↔ c ∈ acc.1 ∨ c ∈ f.content := by
  have hblank : c ∉ (" " : Text) := by simpa [Text.ofString, Text.ofChars] using hc
  by_cases hf : f.content = []
  · rw [append_empty hf, hf, or_iff_left List.not_mem_nil]
  · by_cases hjoin : acc.2 = ("<" : Text) ∨ f.content = (">" : Text)
    · rw [append_joined hf hjoin, List.mem_append]
    · obtain ⟨hopen, hclose⟩ := not_or.1 hjoin
      rw [append_apart hf hopen hclose, List.mem_append, List.mem_append, or_iff_left hblank]

theorem mem_foldl_append_iff {fs : List Fragment} {acc : Text × Text} (hc : c ≠ .char ' ') :
    c ∈ (fs.foldl append acc).1 ↔ c ∈ acc.1 ∨ ∃ f ∈ fs, c ∈ f.content := by
  induction fs generalizing acc with
  | nil => simp
  | cons f fs ih =>
    rw [List.foldl_cons, ih, mem_append_iff hc, or_assoc]
    simp

theorem mem_render_iff {t : Tag} (hblank : c ≠ .char ' ') (hat : c ≠ .char '@') :
    c ∈ t.render ↔ c ∈ t.name ∨ ∃ f ∈ t.fragments, c ∈ f.content := by
  have hopen : c ∉ ("@" : Text) := by simpa [Text.ofString, Text.ofChars] using hat
  rw [render, mem_foldl_append_iff hblank, List.mem_append, or_iff_right hopen]

def OneLine (t : Tag) : Prop := lineFeed ∉ t.name ∧ ∀ f ∈ t.fragments, lineFeed ∉ f.content

theorem oneLine_iff {t : Tag} : t.OneLine ↔ lineFeed ∉ t.render := by
  rw [mem_render_iff (by decide) (by decide), OneLine]
  simp

end Tag

namespace Block

variable {b : Block}

theorem not_mem_of_mem_summaryLines {line : Text} (h : line ∈ b.summaryLines) :
    lineFeed ∉ line :=
  fun hmem => absurd (Text.isLineBreak_of_mem_lines h hmem) (by decide)

/-- The summary is cut into its lines, and the line between the two parts is empty. -/
theorem forall_mem_contentLines_iff {p : Text → Prop}
    (hp : ∀ line : Text, lineFeed ∉ line → p line) :
    (∀ line ∈ b.contentLines, p line) ↔ ∀ t ∈ b.tags, p t.render := by
  simp only [contentLines, List.forall_mem_append, List.forall_mem_map]
  refine and_iff_right ⟨fun line h => hp line (not_mem_of_mem_summaryLines h), fun line h => ?_⟩
  split at h
  · cases List.mem_singleton.1 h
    exact hp [] List.not_mem_nil
  · cases h

theorem isFrame_iff : IsFrame (b.render.splitOn lineFeed) ↔
    ∀ t ∈ b.tags, ∀ l ∈ (t.render.splitOn lineFeed).tail, IsStarred l := by
  rw [render, isFrame_framed_iff, forall_mem_contentLines_iff]
  intro line h l hl
  rw [tail_splitOn_of_not_mem h] at hl
  cases hl

theorem splitOn_render_of_oneLine (h : ∀ t ∈ b.tags, t.OneLine) :
    b.render.splitOn lineFeed = enclosed (b.contentLines.map starred) :=
  splitOn_framed_of_oneLine <|
    (forall_mem_contentLines_iff fun _ hl => hl).2 fun t ht => Tag.oneLine_iff.1 (h t ht)

/-- Each line of the summary and each tag has its star, behind which the line feeds of a tag are
left as they are: the text is a frame exactly if what a tag has behind a line feed shows a star of
its own. In particular it is one where no tag has a line feed, in its name or its fragments. -/
theorem splitOn_render (b : Block) :
    b.render.splitOn lineFeed =
      enclosed (b.contentLines.flatMap fun line => (starred line).splitOn lineFeed) ∧
    (IsFrame (b.render.splitOn lineFeed) ↔
      ∀ t ∈ b.tags, ∀ l ∈ (t.render.splitOn lineFeed).tail, IsStarred l) ∧
    ((∀ t ∈ b.tags, t.OneLine) → IsFrame (b.render.splitOn lineFeed) ∧
      b.render.splitOn lineFeed = enclosed (b.contentLines.map starred)) := by
  refine ⟨splitOn_framed _, isFrame_iff, fun h => ⟨isFrame_iff.2 fun t ht l hl => ?_,
    splitOn_render_of_oneLine h⟩⟩
  rw [tail_splitOn_of_not_mem (Tag.oneLine_iff.1 (h t ht))] at hl
  cases hl

/-- A tag whose text goes on in a second line. -/
def spanning (rest : Text) : Block :=
  { summary := "Reads.", tags := [{ kind := .see, fragments := [.text ("a
" ++ rest)] }] }

theorem not_isFrame_spanning : ¬ IsFrame ((spanning "b").render.splitOn lineFeed) := by
  rw [isFrame_iff]
  decide

theorem splitOn_render_spanning : IsFrame ((spanning " * b").render.splitOn lineFeed) ∧
    ∃ t ∈ (spanning " * b").tags, ¬ t.OneLine :=
  ⟨(splitOn_render (spanning " * b")).2.1.2 (by decide), _, List.mem_cons_self, by
    rw [Tag.oneLine_iff]; decide⟩

end Block

end DocComment

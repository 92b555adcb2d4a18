import DocComment.Proofs.Alike
import DocComment.Comment

/-! The two forms of a type parameter in a tag: `<T>` as one text, or the brackets and the name as
three fragments. They document the same name, so tags in either form are alike. They are written the
same too, for what comes behind them looks only at whether a bracket was opened last
(`Tag.foldl_append_congr`). -/

namespace DocComment

namespace Tag

def fused (n : Text) (rest : List Fragment) : List Fragment := .text n.angled :: rest

def parted (n : Text) (rest : List Fragment) : List Fragment :=
  .text "<" :: .identifier n :: .text ">" :: rest

/-- The same param tag with the type parameter `n` in the other form. -/
inductive Rebracketed (n : Text) : Tag → Tag → Prop
  | part (label : Text) (rest : List Fragment) :
      Rebracketed n ⟨.param, label, fused n rest⟩ ⟨.param, label, parted n rest⟩
  | fuse (label : Text) (rest : List Fragment) :
      Rebracketed n ⟨.param, label, parted n rest⟩ ⟨.param, label, fused n rest⟩

variable {t u : Tag} {n label : Text} {rest : List Fragment}

/-- What is written next depends on the last fragment only if that was an opening bracket. -/
theorem foldl_append_congr {fs : List Fragment} {s last last' : Text}
    (h : last = ("<" : Text) ↔ last' = ("<" : Text)) :
    (fs.foldl append (s, last)).1 = (fs.foldl append (s, last')).1 := by
  induction fs generalizing last last' with
  | nil => rfl
  | cons f fs ih =>
    rw [List.foldl_cons, List.foldl_cons]
    by_cases hf : f.content = []
    · rw [append_empty hf, append_empty hf]
      exact ih h
    · -- either way the fragment is the last one then, on both sides
      by_cases hjoin : last = ("<" : Text) ∨ f.content = (">" : Text)
      · rw [append_joined hf hjoin, append_joined hf (hjoin.imp_left h.1)]
      · obtain ⟨hopen, hclose⟩ := not_or.1 hjoin
        rw [append_apart hf hopen hclose, append_apart hf (mt h.2 hopen) hclose]

theorem render_param {fs : List Fragment} :
    render ⟨.param, label, fs⟩ = (fs.foldl append ("@param", [])).1 := by
  have hname : name ⟨.param, label, fs⟩ = TagKind.param.word := by simp [name]
  rw [render, hname]
  rfl

theorem render_fused : render ⟨.param, label, fused n rest⟩ =
    (rest.foldl append ("@param " ++ n.angled, [])).1 := by
  have hfirst : append ("@param", []) (.text n.angled) = ("@param " ++ n.angled, n.angled) :=
    append_apart (List.cons_ne_nil _ _) (by decide) fun h => by cases h
  have hlast : n.angled = ("<" : Text) ↔ ([] : Text) = ("<" : Text) :=
    iff_of_false Text.angled_ne_open (by decide)
  rw [render_param, fused, List.foldl_cons, hfirst, foldl_append_congr hlast]

theorem render_parted (hn : n ≠ []) : render ⟨.param, label, parted n rest⟩ =
    (rest.foldl append ("@param " ++ n.angled, [])).1 := by
  have hopen : append ("@param", []) (.text "<") = (("@param <" : Text), ("<" : Text)) := by decide
  have hname : append ("@param <", "<") (.identifier n) = ("@param <" ++ n, n) :=
    append_joined hn (.inl rfl)
  have hclose : append ("@param <" ++ n, n) (.text ">") =
      ("@param <" ++ n ++ ">", (">" : Text)) := append_joined (by decide) (.inr rfl)
  have hlast : (">" : Text) = ("<" : Text) ↔ ([] : Text) = ("<" : Text) := by decide
  rw [render_param, parted, List.foldl_cons, List.foldl_cons, List.foldl_cons, hopen, hname, hclose,
    foldl_append_congr hlast]
  rfl

theorem argument_fused (hn : n ≠ []) :
    argument ⟨.param, label, fused n rest⟩ = some n.angled := by
  simp only [argument, fused, genericArgument, if_pos, if_neg Text.angled_ne_open,
    Text.isAngled_angled.2 hn]

theorem argument_parted (hdot : .char '.' ∉ n) :
    argument ⟨.param, label, parted n rest⟩ = some n.angled := by
  simp only [argument, parted, genericArgument, if_pos, Text.simpleName_eq_self_iff.2 hdot]

namespace Rebracketed

variable (h : t.Rebracketed n u) (hn : n ≠ [])
include h hn

theorem render_eq : u.render = t.render := by
  cases h with
  | part => rw [render_fused, render_parted hn]
  | fuse => rw [render_fused, render_parted hn]

variable (hdot : .char '.' ∉ n)
include hdot

theorem argument_eq : t.argument = some n.angled ∧ u.argument = some n.angled := by
  cases h with
  | part => exact ⟨argument_fused hn, argument_parted hdot⟩
  | fuse => exact ⟨argument_parted hdot, argument_fused hn⟩

theorem key_eq : u.key = t.key := by
  have hkind : u.kind = t.kind := by cases h <;> rfl
  obtain ⟨ht, hu⟩ := h.argument_eq hn hdot
  rw [key, key, hkind, ht, hu]

end Rebracketed

end Tag

theorem map_set_of_eq {α β : Type} {f : α → β} {l : List α} {i : Nat} {a b : α}
    (hi : l[i]? = some a) (h : f b = f a) : (l.set i b).map f = l.map f := by
  obtain ⟨hlt, rfl⟩ := List.getElem?_eq_some_iff.1 hi
  rw [List.map_set, h, ← List.map_set, List.set_getElem_self]

namespace Block

variable {b b' : Block}

theorem render_congr (hs : b.summary = b'.summary)
    (h : b.tags.map Tag.render = b'.tags.map Tag.render) : b.render = b'.render := by
  have hlines : b.summaryLines = b'.summaryLines := by rw [summaryLines, summaryLines, hs]
  have hnil : b.tags = [] ↔ b'.tags = [] := by
    rw [← List.map_eq_nil_iff (f := Tag.render), h, List.map_eq_nil_iff]
  simp only [render, contentLines, hlines, h, ne_eq, hnil]

/-- A param tag of a block may have its type parameter in either form. -/
theorem set_rebracketed (b : Block) (i : Nat) (n : Text) (t u : Tag) (hi : b.tags[i]? = some t)
    (h : t.Rebracketed n u) (hn : n ≠ []) (hdot : .char '.' ∉ n) :
    t.argument = some n.angled ∧ u.argument = some n.angled ∧ u.render = t.render ∧
    render { b with tags := b.tags.set i u } = b.render ∧
    (∀ (d : Declaration) p,
      Declaration.missingElements { d with doc := some { b with tags := b.tags.set i u } } p =
        Declaration.missingElements { d with doc := some b } p) ∧
    ∀ new leading, insertionIndex (b.tags.set i u) new leading =
      insertionIndex b.tags new leading := by
  have halike : Alike b.tags (b.tags.set i u) := (map_set_of_eq hi (h.key_eq hn hdot)).symm
  obtain ⟨ht, hu⟩ := h.argument_eq hn hdot
  refine ⟨ht, hu, h.render_eq hn, render_congr rfl (map_set_of_eq hi (h.render_eq hn)), ?_, ?_⟩
  · intro d p
    exact Declaration.missingElements_congr (d := { d with doc := some b }) rfl halike
  · intro new leading
    exact (halike.insertionIndex_eq new leading).symm

/-- The block `wordy` has its type parameter in parts. What follows there is a text. -/
theorem set_rebracketed_wordy : ∃ t u, Declaration.wordy.tags[1]? = some t ∧
    t.Rebracketed "K" u ∧ t.fragments.length = 4 ∧ u.fragments.length = 2 ∧
    u.argument = some (Text.angled "K") ∧
    render { Declaration.wordy with tags := Declaration.wordy.tags.set 1 u } =
      Declaration.wordy.render := by
  have h : Tag.Rebracketed "K" _ _ := .fuse [] [.text "the keys"]
  obtain ⟨-, hu, -, hrender, -⟩ := set_rebracketed Declaration.wordy 1 "K" _ _ rfl h
    (by decide) (by decide)
  exact ⟨_, _, rfl, h, rfl, rfl, hu, hrender⟩

end Block

end DocComment

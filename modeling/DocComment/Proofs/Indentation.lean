import DocComment.Proofs.Framing
import DocComment.Proofs.FreshComment
import DocComment.Proofs.Session

/-! A stub in front of an indented declaration. Cut at its line feeds, the text that is proposed has
the lines of the stub, each but the first behind the indentation, and the bare indentation at its
end (`splitOn_indentComment`): with one copy of it taken away behind each line feed it is the stub
again. This needs names without line breaks, at which the lines would be cut anew. -/

namespace DocComment

namespace Text

def Unbroken (s : Text) : Prop := ∀ c ∈ s, isLineBreak c.code = false

instance (s : Text) : Decidable s.Unbroken := inferInstanceAs (Decidable (∀ c ∈ s, _))

variable {s t : Text}

theorem unbroken_append_iff : (s ++ t).Unbroken ↔ s.Unbroken ∧ t.Unbroken :=
  List.forall_mem_append

theorem Unbroken.lineFeed_not_mem (h : s.Unbroken) : lineFeed ∉ s :=
  fun hmem => absurd (h _ hmem) (by decide)

theorem Unbroken.angled (h : s.Unbroken) : s.angled.Unbroken := by
  have hopen : Unbroken [.char '<'] := by decide
  have hclose : Unbroken [.char '>'] := by decide
  exact unbroken_append_iff.2 ⟨hopen, unbroken_append_iff.2 ⟨h, hclose⟩⟩

theorem Unbroken.simpleName (h : s.Unbroken) : s.simpleName.Unbroken := by
  intro c hc
  have hmem : c ∈ s.reverse := List.takeWhile_subset _ (List.mem_reverse.1 hc)
  exact h c (List.mem_reverse.1 hmem)

theorem lines_append_lineFeed (hs : s.Unbroken) : lines (s ++ lineFeed :: t) = s :: lines t := by
  induction s with
  | nil => rfl
  | cons c s ih =>
    obtain ⟨hc, hs⟩ := List.forall_mem_cons.1 hs
    have hne : c ≠ .char '\r' := by
      rintro rfl
      exact absurd hc (by decide)
    rw [List.cons_append, lines, ih hs]
    · simp [hc]
    · rintro r rfl
      exact absurd rfl hne

theorem lines_flatMap {ls : List Text} (h : ∀ l ∈ ls, l.Unbroken) :
    lines (ls.flatMap (· ++ [lineFeed])) = ls := by
  induction ls with
  | nil => rfl
  | cons l ls ih =>
    obtain ⟨hl, hls⟩ := List.forall_mem_cons.1 h
    rw [List.flatMap_cons, List.append_assoc, List.singleton_append, lines_append_lineFeed hl,
      ih hls]

/-- The text without the copy of `indent` that stands behind each line feed. -/
def unindented (s indent : Text) : Text :=
  match s.splitOn lineFeed with
  | [] => []
  | first :: rest =>
    [lineFeed].intercalate (first :: rest.map fun l => (l.dropPrefix? indent).getD l)

end Text

theorem intercalate_cons {α : Type} {sep first : List α} {rest : List (List α)} :
    sep.intercalate (first :: rest) = first ++ rest.flatMap (sep ++ ·) := by
  induction rest generalizing first with
  | nil => simp
  | cons l rest ih =>
    rw [List.intercalate_cons_cons, ih, List.flatMap_cons, List.append_assoc, List.append_assoc]

def indented (indent : Text) : List Text → List Text
  | [] => []
  | first :: rest => first :: rest.map (indent ++ ·)

section indentComment
variable {comment indent first : Text} {rest : List Text}

theorem indentComment_eq_intercalate (hlines : comment.lines = first :: rest)
    (hne : ∀ l ∈ rest, l ≠ []) : indentComment comment indent "\n" =
      [lineFeed].intercalate (indented indent (comment.lines ++ [[]])) := by
  have hrest : (rest.flatMap fun l => ("\n" : Text) ++ if l = [] then l else indent ++ l) =
      (rest.map (indent ++ ·)).flatMap ([lineFeed] ++ ·) := by
    rw [List.flatMap_map]
    refine List.flatMap_congr fun l hl => ?_
    rw [if_neg (hne l hl)]
    rfl
  simp only [indentComment, hlines, hrest, List.cons_append, indented, intercalate_cons,
    List.map_append, List.flatMap_append, List.map_singleton, List.flatMap_singleton,
    List.append_nil, List.append_assoc]
  rfl

theorem splitOn_indentComment (hlines : comment.lines = first :: rest) (hne : ∀ l ∈ rest, l ≠ [])
    (hindent : lineFeed ∉ indent) : (indentComment comment indent "\n").splitOn lineFeed =
      indented indent (comment.lines ++ [[]]) := by
  have hbare : ∀ l ∈ comment.lines ++ [[]], lineFeed ∉ l := by
    intro l hl hmem
    rcases List.mem_append.1 hl with hl | hl
    · exact absurd (Text.isLineBreak_of_mem_lines hl hmem) (by decide)
    · rw [List.mem_singleton.1 hl] at hmem
      cases hmem
  rw [indentComment_eq_intercalate hlines hne]
  rw [hlines, List.cons_append] at hbare ⊢
  refine List.splitOn_intercalate _ (List.forall_mem_cons.2 ⟨?_, ?_⟩) (List.cons_ne_nil _ _)
  · exact hbare _ List.mem_cons_self
  · exact List.forall_mem_map.2 fun l hl =>
      List.not_mem_append hindent (hbare l (List.mem_cons_of_mem _ hl))

end indentComment

theorem indented_nil (ls : List Text) : indented [] ls = ls := by
  cases ls <;> simp [indented]

/-- Where the pieces of `s` are those of `t` behind the indentation, it can be taken away again. -/
theorem unindented_of_splitOn {s t indent : Text}
    (h : s.splitOn lineFeed = indented indent (t.splitOn lineFeed)) : s.unindented indent = t := by
  obtain ⟨first, rest, ht⟩ := List.exists_cons_of_ne_nil (List.splitOn_ne_nil lineFeed t)
  have hdrop : ∀ l : Text, ((indent ++ l).dropPrefix? indent).getD (indent ++ l) = l := by
    intro l
    rw [List.dropPrefix?_append_of_beq l (beq_self_eq_true indent), Option.getD_some]
  rw [Text.unindented, h, ht]
  simp only [indented, List.map_map, Function.comp_def, hdrop, List.map_id']
  rw [← ht, List.intercalate_splitOn]

section framed
variable {ls : List Text} {indent : Text}

theorem Text.Unbroken.starred {line : Text} (h : line.Unbroken) : (starred line).Unbroken := by
  unfold DocComment.starred
  split
  · decide
  · exact unbroken_append_iff.2 ⟨by decide, h⟩

theorem lines_framed (h : ∀ line ∈ ls, line.Unbroken) :
    (framed ls).lines = ("/**" : Text) :: (ls.map starred ++ [(" */" : Text)]) := by
  have htext : framed ls =
      (("/**" : Text) :: (ls.map starred ++ [(" */" : Text)])).flatMap (· ++ [lineFeed]) := by
    have hline : framedLine = fun line => starred line ++ [lineFeed] := funext framedLine_eq
    simp only [framed, hline, List.flatMap_cons, List.flatMap_append, List.flatMap_map,
      List.append_assoc]
    rfl
  rw [htext]
  refine Text.lines_flatMap (List.forall_mem_cons.2 ⟨by decide, List.forall_mem_append.2 ⟨?_, ?_⟩⟩)
  · exact List.forall_mem_map.2 fun line hl => (h line hl).starred
  · exact List.forall_mem_singleton.2 (by decide)

theorem splitOn_indentComment_framed (h : ∀ line ∈ ls, line.Unbroken) (hindent : indent.Unbroken) :
    (indentComment (framed ls) indent "\n").splitOn lineFeed =
      indented indent ((framed ls).splitOn lineFeed) := by
  have hne : ∀ l ∈ ls.map starred ++ [(" */" : Text)], l ≠ [] := by
    refine List.forall_mem_append.2 ⟨List.forall_mem_map.2 fun line _ => ?_, by decide⟩
    unfold starred
    split
    · decide
    · exact List.cons_ne_nil _ _
  rw [splitOn_indentComment (lines_framed h) hne hindent.lineFeed_not_mem, lines_framed h,
    splitOn_framed_of_oneLine fun line hl => (h line hl).lineFeed_not_mem, enclosed,
    List.cons_append, List.append_assoc, List.singleton_append]

end framed

namespace Declaration

variable {d : Declaration} {p : Policy} {indent : Text}

/-- The placeholder and the names of the declaration stay on one line each. -/
structure Unbroken (d : Declaration) (p : Policy) : Prop where
  placeholder : p.stubPlaceholder.Unbroken
  parameters : ∀ n ∈ d.parameterNames, n.Unbroken
  generics : ∀ n ∈ d.typeParameters, n.Unbroken
  typeNames : ∀ x ∈ d.thrown, x.typeName.Unbroken
  resolvedNames : ∀ x ∈ d.thrown, ∀ r ∈ x.resolvedName, r.Unbroken

theorem Unbroken.spelling (h : d.Unbroken p) {x : ThrownException} (hx : x ∈ d.thrown) (q : Bool) :
    (x.spelling q).Unbroken := by
  have htype := h.typeNames x hx
  have hsimple : x.simpleName.Unbroken := by
    unfold ThrownException.simpleName
    split
    next => exact htype.simpleName
    next r hr =>
      split
      · exact htype.simpleName
      · exact (h.resolvedNames x hx r hr).simpleName
  unfold ThrownException.spelling
  split
  · exact htype
  · exact hsimple

theorem Unbroken.stubTags (h : d.Unbroken p) : ∀ line ∈ d.stubTags p, line.Unbroken := by
  have hparam : Text.Unbroken "@param " := by decide
  have hthrows : Text.Unbroken "@throws " := by decide
  have hgenerics : ∀ n ∈ d.typeParameters, (("@param " : Text) ++ n.angled).Unbroken :=
    fun n hn => Text.unbroken_append_iff.2 ⟨hparam, (h.generics n hn).angled⟩
  unfold Declaration.stubTags
  split
  next => exact List.forall_mem_nil _
  next => exact List.forall_mem_nil _
  next => exact List.forall_mem_map.2 hgenerics
  next =>
    simp only [List.forall_mem_append, List.forall_mem_map]
    refine ⟨⟨⟨?_, fun n hn => ?_⟩, ?_⟩, fun x hx => ?_⟩
    · split
      · exact List.forall_mem_map.2 hgenerics
      · exact List.forall_mem_nil _
    · exact Text.unbroken_append_iff.2 ⟨hparam, h.parameters n hn⟩
    · split <;> decide
    · exact Text.unbroken_append_iff.2 ⟨hthrows, h.spelling hx _⟩

theorem exists_planAll_of_stub {stub : Text} (hk : d.kind ∈ DeclarationKind.known)
    (hd : d.doc = none) (hstub : d.stub? p = some stub) (indent : Text) :
    ∃ l, d.planAll p indent =
      .ok (.commented l (if indent = [] then stub else indentComment stub indent "\n"), d) := by
  obtain ⟨l, hl⟩ := exists_comment hk d.name
  refine ⟨l, ?_⟩
  simp only [planAll, hd, planStub, hstub, hl, Except.map]

/-- The stub that is proposed for an indented declaration has the indentation behind each of its
line feeds, and nothing else behind the last one. Taken away there once, it leaves the stub as it
is without indentation. -/
theorem planAll_indents (d : Declaration) (p : Policy) (indent : Text)
    (hk : d.kind ∈ DeclarationKind.known) (hd : d.doc = none) (hname : d.name ≠ [])
    (hn : d.Unbroken p) (hindent : indent.Unbroken) :
    ∃ plan s stub, d.planAll p indent = .ok (plan, d) ∧ plan.stub = some s ∧
      d.stub? p = some stub ∧ (∀ piece ∈ (s.splitOn lineFeed).tail, indent <+: piece) ∧
      (s.splitOn lineFeed).tail.getLast? = some indent ∧ s.unindented indent = stub := by
  obtain ⟨ls, hstub, hls⟩ : ∃ ls, d.stub? p = some (framed ls) ∧ ∀ line ∈ ls, line.Unbroken := by
    refine ⟨_, stub?_eq hd hname, List.forall_mem_cons.2 ⟨hn.placeholder, ?_⟩⟩
    refine List.forall_mem_append.2 ⟨?_, hn.stubTags⟩
    split <;> decide
  obtain ⟨l, hplan⟩ := exists_planAll_of_stub hk hd hstub indent
  -- without an indentation the stub is left as it is
  have hpieces : (if indent = [] then framed ls else
      indentComment (framed ls) indent "\n").splitOn lineFeed =
      indented indent ((framed ls).splitOn lineFeed) := by
    split
    next hnil => rw [hnil, indented_nil]
    next => exact splitOn_indentComment_framed hls hindent
  refine ⟨_, _, _, hplan, rfl, hstub, ?_, ?_, unindented_of_splitOn hpieces⟩
  · rw [hpieces, splitOn_framed, enclosed, indented, List.tail_cons]
    exact List.forall_mem_map.2 fun l _ => List.prefix_append _ _
  · rw [hpieces, splitOn_framed, enclosed, indented, List.tail_cons, List.getLast?_map]
    simp

/-- An indentation that looks like the lines behind it. -/
theorem planAll_undocumented_indents : ∃ plan s, undocumented.planAll
      { qualifiedExceptionNames := true, stubPlaceholder := "TODO" } " *" =
        .ok (plan, undocumented) ∧ plan.stub = some s ∧
    s.take 25 = ("/**\n * * TODO\n * *\n * * @" : Text) ∧
    (s.splitOn lineFeed).tail.getLast? = some (" *" : Text) ∧
    undocumented.stub? { qualifiedExceptionNames := true, stubPlaceholder := "TODO" } =
      some (s.unindented " *") := by
  obtain ⟨plan, s, stub, hplan, hs, hstub, -, hlast, hback⟩ := planAll_indents undocumented
    { qualifiedExceptionNames := true, stubPlaceholder := "TODO" } " *" (by decide) rfl (by decide)
    ⟨by decide, by decide, by decide, by decide, by decide⟩ (by decide)
  subst hback
  refine ⟨plan, s, hplan, hs, ?_, hlast, hstub⟩
  cases hplan
  cases hs
  decide

end Declaration

end DocComment

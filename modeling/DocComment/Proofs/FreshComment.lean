import DocComment.Comment
import DocComment.Proofs.Merge

/-! Two ways to a new comment. The stub of a declaration is the text of the block that the batch
makes of an empty one, where the names can be shown (`insertAll_renders_stub`). -/

namespace DocComment

theorem Tag.render_of_subject {k : TagKind} {f : Fragment} (hne : f.content ≠ [])
    (hgt : f.content ≠ (">" : String)) :
    Tag.render { kind := k, fragments := [f, .text []] } =
      "@" ++ k.word ++ " " ++ f.content := by
  have hopen : ([] : Text) ≠ ("<" : String) := by decide
  have hname : Tag.name { kind := k, fragments := [f, .text []] } = k.word := by simp [name]
  have hsubject : append ("@" ++ k.word, []) f =
      ("@" ++ k.word ++ " " ++ f.content, f.content) := append_apart hne hopen hgt
  rw [render, hname, List.foldl_cons, hsubject]
  rfl

theorem map_mapIdx_eq_map {α β γ : Type} {l : List α} {f : Nat → α → β} {g : β → γ} {k : α → γ}
    (h : ∀ i, ∀ a ∈ l, g (f i a) = k a) : (l.mapIdx f).map g = l.map k := by
  refine List.ext_getElem (by simp) fun i hi _ => ?_
  simp [h i _ (List.getElem_mem _)]

section block
variable {summary : Text} {ts : List Tag}

theorem Block.contentLines_of_line (hne : summary ≠ [])
    (hline : ∀ c ∈ summary, Text.isLineBreak c.code = false) :
    contentLines { summary, tags := ts } =
      summary :: ((if ts ≠ [] then [[]] else []) ++ ts.map Tag.render) := by
  simp [contentLines, summaryLines, Text.lines_eq_singleton hne hline]

theorem Block.contentLines_of_no_summary :
    contentLines { tags := ts } = ts.map Tag.render := by
  simp [contentLines, summaryLines, Text.lines]

end block

namespace Element

variable {names generics : List Text} {xs : List ThrownException} {q : Bool} {i : Nat} {n : Text}
  {x : ThrownException}

def line (e : Element) : Text := (e.tag false).render

theorem line_typeParameter : (typeParameter names i n).line = "@param " ++ n.angled := by
  have hgt : n.angled ≠ (">" : String) := fun h => by cases h
  exact Tag.render_of_subject (k := .param) (f := .text n.angled) (List.cons_ne_nil _ _) hgt

theorem line_valueParameter (hne : n ≠ []) (hgt : n ≠ (">" : String)) :
    (valueParameter names generics i n).line = "@param " ++ n :=
  Tag.render_of_subject (k := .param) (f := .identifier n) hne hgt

theorem line_returned : returned.line = ("@return" : String) := rfl

theorem line_thrownException (hne : x.spelling q ≠ []) (hgt : x.spelling q ≠ (">" : String)) :
    (thrownException xs q i x).line = "@throws " ++ x.spelling q := by
  have htag : (thrownException xs q i x).tag false =
      { kind := .throws, fragments := [.identifier (x.spelling q), .text []] } := by
    simp [Element.tag, placeholderTag, thrownException, Role.tagKind, hne]
  rw [line, htag]
  exact Tag.render_of_subject hne hgt

end Element

namespace Declaration

open Element

variable {d : Declaration} {p : Policy} {b : Block}

/-- The names can stand as fragments of their own in the text of a tag: an empty one is left out,
and a bracket joins what is in front of it. -/
structure Shown (d : Declaration) (p : Policy) : Prop where
  resolved : ∀ x ∈ d.thrown, x.isResolved = true
  parameters : ∀ n ∈ d.parameterNames, n ≠ [] ∧ n ≠ (">" : String)
  exceptions : ∀ x ∈ d.thrown, x.spelling p.qualifiedExceptionNames ≠ [] ∧
    x.spelling p.qualifiedExceptionNames ≠ (">" : String)

instance (d : Declaration) (p : Policy) : Decidable (d.Shown p) :=
  decidable_of_iff ((∀ x ∈ d.thrown, x.isResolved = true) ∧
      (∀ n ∈ d.parameterNames, n ≠ [] ∧ n ≠ (">" : String)) ∧
      ∀ x ∈ d.thrown, x.spelling p.qualifiedExceptionNames ≠ [] ∧
        x.spelling p.qualifiedExceptionNames ≠ (">" : String))
    ⟨fun ⟨h1, h2, h3⟩ => ⟨h1, h2, h3⟩, fun ⟨h1, h2, h3⟩ => ⟨h1, h2, h3⟩⟩

theorem exceptionElements_of_resolved (h : ∀ x ∈ d.thrown, x.isResolved = true) :
    d.exceptionElements p =
      d.thrown.mapIdx (thrownException d.thrown p.qualifiedExceptionNames) := by
  have hall : ∀ y ∈ d.thrown.zipIdx, (if y.1.isResolved then
      some (thrownException d.thrown p.qualifiedExceptionNames y.2 y.1) else none) =
      (some ∘ fun y => thrownException d.thrown p.qualifiedExceptionNames y.2 y.1) y := by
    intro y hy
    exact if_pos (h y.1 (List.fst_mem_of_mem_zipIdx hy))
  rw [exceptionElements, List.filterMap_congr hall, List.filterMap_eq_map,
    List.mapIdx_eq_zipIdx_map]

theorem map_line_taggable (hk : d.kind = .method ∨ d.kind = .type) (hsh : d.Shown p) :
    (d.taggable p).map line = d.stubTags p := by
  have hgenerics : (d.typeParameterElements p).map line =
      (d.generics p).map fun n : Text => ("@param " : Text) ++ n.angled :=
    map_mapIdx_eq_map fun i n _ => line_typeParameter
  have hparameters : (d.valueParameterElements p).map line =
      d.parameterNames.map (("@param " : Text) ++ ·) :=
    map_mapIdx_eq_map fun i n hn =>
      line_valueParameter (hsh.parameters n hn).1 (hsh.parameters n hn).2
  have hreturn : d.returnElements.map line =
      if d.documentsReturn then [("@return" : Text)] else [] := by
    unfold returnElements
    split
    · rw [List.map_singleton, line_returned]
    · rfl
  have hexceptions : (d.exceptionElements p).map line =
      d.thrown.map fun x => ("@throws " : Text) ++ x.spelling p.qualifiedExceptionNames := by
    rw [exceptionElements_of_resolved hsh.resolved]
    exact map_mapIdx_eq_map fun i x hx =>
      line_thrownException (hsh.exceptions x hx).1 (hsh.exceptions x hx).2
  rcases hk with hk | hk
  · cases hm : p.methodTypeParameters <;>
      simp [taggable, stubTags, generics, hk, hm, hgenerics, hparameters, hreturn, hexceptions]
  · simp [taggable, stubTags, generics, hk, hgenerics]

/-- In a comment without tags the batch makes them in declaration order. -/
theorem doc_filled_of_no_tags (hd : d.doc = some b) (hb : b.tags = []) (hn : d.Distinct)
    (hs : d.Spelled p) :
    (d.filled p).doc = some { b with tags := (d.taggable p).map (·.tag false) } := by
  have hnone : d.tags = [] := (tags_of_doc hd).trans hb
  have hmissing : d.missing p = d.taggable p := by
    simp [missing, documents, hnone]
  rw [filled, doc_withTags hd, settleAll_eq_mergeByGap (pairwise_missing hn hs), hnone,
    mergeByGap_nil, hmissing]

def newBlock (d : Declaration) (p : Policy) : Block :=
  { summary := p.stubPlaceholder, tags := (d.taggable p).map (·.tag false) }

theorem map_render_newBlock (hk : d.kind = .method ∨ d.kind = .type) (hsh : d.Shown p) :
    (d.newBlock p).tags.map Tag.render = d.stubTags p := by
  rw [newBlock, List.map_map]
  exact map_line_taggable hk hsh

theorem stub?_eq (hd : d.doc = none) (hname : d.name ≠ []) :
    d.stub? p = some (framed (p.stubPlaceholder ::
      ((if d.stubTags p ≠ [] ∧ p.stubPlaceholder ≠ [] then [[]] else []) ++ d.stubTags p))) := by
  simp [stub?, hd, hname]

theorem stub?_of_placeholder (hk : d.kind = .method ∨ d.kind = .type) (hd : d.doc = none)
    (hname : d.name ≠ []) (hsh : d.Shown p) (hne : p.stubPlaceholder ≠ [])
    (hline : ∀ c ∈ p.stubPlaceholder, Text.isLineBreak c.code = false) :
    d.stub? p = some (d.newBlock p).render := by
  have htags : d.stubTags p ≠ [] ↔ (d.newBlock p).tags ≠ [] := by
    rw [← map_render_newBlock hk hsh, Ne, List.map_eq_nil_iff]
  have hlines : (d.newBlock p).contentLines = p.stubPlaceholder ::
      ((if (d.newBlock p).tags ≠ [] then [[]] else []) ++ (d.newBlock p).tags.map Tag.render) :=
    Block.contentLines_of_line hne hline
  rw [stub?_eq hd hname, Block.render, hlines, map_render_newBlock hk hsh]
  simp [htags, hne]

theorem stub?_of_no_placeholder (hk : d.kind = .method ∨ d.kind = .type) (hd : d.doc = none)
    (hname : d.name ≠ []) (hsh : d.Shown p) (hempty : p.stubPlaceholder = []) :
    ∃ rest, (d.newBlock p).render = "/**\n" ++ rest ∧
      d.stub? p = some ("/**\n" ++ (" *\n" ++ rest)) := by
  have hlines : (d.newBlock p).contentLines = d.stubTags p := by
    rw [← map_render_newBlock hk hsh, newBlock, hempty, Block.contentLines_of_no_summary]
  refine ⟨(d.stubTags p).flatMap framedLine ++ " */\n", ?_, ?_⟩
  · rw [Block.render, hlines, framed, List.append_assoc]
  · rw [stub?_eq hd hname, hempty, framed, List.flatMap_cons]
    simp [framedLine]

/-- The batch on a comment that holds the placeholder alone makes the block whose text is the stub;
for an empty placeholder the stub has one line more, at its head. -/
theorem insertAll_renders_stub (d : Declaration) (p : Policy)
    (hk : d.kind = .method ∨ d.kind = .type) (hd : d.doc = none) (hname : d.name ≠ [])
    (hn : d.Distinct) (hs : d.Spelled p) (hsh : d.Shown p)
    (hline : ∀ c ∈ p.stubPlaceholder, Text.isLineBreak c.code = false) :
    ∃ is d' b, insertAll { d with doc := some { summary := p.stubPlaceholder } } p =
        .ok (is, d') ∧ d'.doc = some b ∧
      (p.stubPlaceholder ≠ [] → d.stub? p = some b.render) ∧
      (p.stubPlaceholder = [] → ∃ rest, b.render = "/**\n" ++ rest ∧
        d.stub? p = some ("/**\n" ++ (" *\n" ++ rest))) := by
  have hknown : d.kind ∈ DeclarationKind.known := by
    rcases hk with hk | hk <;> simp [DeclarationKind.known, hk]
  have hdoc := doc_filled_of_no_tags (d := { d with doc := some { summary := p.stubPlaceholder } })
    rfl rfl (hn.with_doc _) hs
  exact ⟨_, _, d.newBlock p, insertAll_eq hknown rfl, hdoc,
    fun hne => stub?_of_placeholder hk hd hname hsh hne hline,
    fun hempty => stub?_of_no_placeholder hk hd hname hsh hempty⟩

/-- All roles, and an exception that is written in full. -/
def undocumented : Declaration :=
  { scattered with
    doc := none
    thrown := [⟨"java.io.IOException", some ("java.io.IOException" : String)⟩] }

theorem insertAll_undocumented_renders_stub : ∃ is d' b,
    insertAll { undocumented with doc := some { summary := "TODO" } }
        { qualifiedExceptionNames := true, stubPlaceholder := "TODO" } = .ok (is, d') ∧
      d'.doc = some b ∧ b.render = "/**\n * TODO\n *\n * @param <K>\n * @param <V>\n" ++
        (" * @param key\n * @param fallback\n * @return\n" : Text) ++
        " * @throws java.io.IOException\n */\n" := by
  obtain ⟨is, d', b, hi, hdoc, hstub, -⟩ := insertAll_renders_stub undocumented
    { qualifiedExceptionNames := true, stubPlaceholder := "TODO" } (.inl rfl) rfl (by decide)
    (by decide) (by decide) (by decide) (by decide)
  refine ⟨is, d', b, hi, hdoc, ?_⟩
  exact (Option.some.inj (hstub (by decide))).symm.trans rfl

end Declaration

end DocComment

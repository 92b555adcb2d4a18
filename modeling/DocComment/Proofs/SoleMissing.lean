import DocComment.Proofs.Crossing

/-! The batch and a single request where one tag is missing. Both place the same tag, each behind
the tags that it minds. The batch does not mind those of type parameters that the policy leaves
out, and a single request does: that is all in which they differ (`planAll_agrees_iff`). -/

namespace DocComment.Declaration

open Element

variable {d : Declaration} {p : Policy} {e : Element} {t : Tag}

/-- The tag of a type parameter that the policy leaves out: a single request for a value parameter
goes behind it, and the batch does not look at it. -/
structure PassesOver (d : Declaration) (p : Policy) (e : Element) (t : Tag) : Prop where
  blind : p.methodTypeParameters = false
  role : e.role = .valueParameter
  kind : t.kind = .param
  generic : ∃ g ∈ d.typeParameters, t.argument = some g.angled

theorem exists_counterpart (hk : d.kind = .method) (he : e ∈ d.missing p) :
    ∃ f ∈ d.missing p.withGenerics, f.role = e.role ∧ f.position = e.position ∧
      f.tag false = e.tag false ∧
      ∀ t, f.follows t = true ↔ e.follows t = true ∨ d.PassesOver p e t := by
  obtain ⟨htakes, hdoc⟩ := mem_missing.1 he
  rcases generics_eq_or (d := d) (p := p) with hg | ⟨-, hblind, hg⟩
  · refine ⟨e, mem_missing.2 ⟨htakes.withGenerics hg, hdoc⟩, rfl, rfl, rfl, fun t => ?_⟩
    refine (or_iff_left fun hover => ?_).symm
    -- what the policy leaves out is nothing
    obtain ⟨g, hgen, -⟩ := hover.generic
    rw [← hg, generics, if_pos ⟨hk, hover.blind⟩] at hgen
    cases hgen
  · cases htakes with
    | typeParameter hkind hi => simp [hg] at hi
    | @valueParameter i n hkind hi =>
      refine ⟨.valueParameter d.parameterNames d.typeParameters i n, ?_, rfl, rfl, rfl, fun t => ?_⟩
      · have htakes := Takes.valueParameter (p := p.withGenerics) hkind hi
        rw [generics_withGenerics] at htakes
        exact mem_missing.2 ⟨htakes, hdoc⟩
      · rw [follows_valueParameter_iff, hg]
        refine or_congr_right ⟨?_, ?_⟩
        · rintro ⟨g, hgen, hkt, hat⟩
          exact ⟨hblind, rfl, hkt, g, hgen, hat⟩
        · rintro ⟨-, -, hkt, g, hgen, hat⟩
          exact ⟨g, hgen, hkt, hat⟩
    | returned hkind hr =>
      refine ⟨_, mem_missing.2 ⟨.returned hkind hr, hdoc⟩, rfl, rfl, rfl, fun t => ?_⟩
      exact (or_iff_left fun hover => by cases hover.role).symm
    | thrownException hkind hi hx =>
      refine ⟨_, mem_missing.2 ⟨.thrownException hkind hi hx, hdoc⟩, rfl, rfl, rfl, fun t => ?_⟩
      exact (or_iff_left fun hover => by cases hover.role).symm

theorem planAll_adds (hk : d.kind ∈ DeclarationKind.known) {b : Block} (hd : d.doc = some b)
    (hm : d.missing p = [e]) (indent : Text) : ∃ all l, d.planAll p indent = .ok (all, l) ∧
      all.Adds ⟨pastLast e.follows d.tags, e.tag false⟩ d l ∧
      l = d.withTags (e.settle d.tags) := by
  have hfilled : d.filled p = d.withTags (e.settle d.tags) := by
    rw [filled, hm, batchOf_singleton]
    rfl
  have hinsertions : d.batchInsertions p = [⟨pastLast e.follows d.tags, e.tag false⟩] := by
    rw [batchInsertions, hm, batchOf_singleton]
    rfl
  refine ⟨_, _, planAll_eq hk hd indent, ?_, hfilled⟩
  rw [batchPlan_of_ne_nil (hm ▸ List.cons_ne_nil _ _), hinsertions, hfilled]
  exact ⟨rfl, pastLast_le _, rfl, withTags_eq d _⟩

/-- Where one tag is missing, the batch and a single request for its element add the same tag. They
put it at the same index, and leave the same declaration, exactly if the batch passes over no tag
behind the place that it takes. -/
theorem planAll_agrees_iff (d : Declaration) (b : Block) (p : Policy) (e : Element) (indent : Text)
    (hk : d.kind = .method) (hd : d.doc = some b) (hm : d.missingElements p = .ok [e]) :
    ∃ k k' all one l l',
      d.planAll p indent = .ok (all, l) ∧ all.Adds ⟨k, e.tag false⟩ d l ∧
      d.planOne p e.role e.position = .ok (one, l') ∧ one.Adds ⟨k', e.tag false⟩ d l' ∧
      (k = k' ∧ l = l' ↔ ∀ u ∈ d.tags.drop k, ¬ d.PassesOver p e u) := by
  obtain ⟨hknown, hmissing⟩ := missingElements_eq_ok.1 hm
  have he : e ∈ d.missing p := by simp [hmissing]
  obtain ⟨f, hf, hrole, hpos, htag, hfollows⟩ := exists_counterpart hk he
  obtain ⟨all, l, hall, hadds, rfl⟩ := planAll_adds hknown hd hmissing indent
  have hone := planOne_of_mem hf
  have hadds' := adds_inserted (d := d) (e := f) (.add f.role)
  have hinsert : f.insertion d.tags d.doc.isNone = ⟨pastLast f.follows d.tags, e.tag false⟩ := by
    rw [hd, ← htag]
    rfl
  rw [hinsert, hrole, hpos, insertElement_of_doc hd] at hone
  rw [hinsert, hrole, insertElement_of_doc hd] at hadds'
  have hmore : ∀ t, e.follows t = true → f.follows t = true := fun t ht => (hfollows t).2 (.inl ht)
  refine ⟨pastLast e.follows d.tags, pastLast f.follows d.tags, all, _, _, _, hall, hadds, hone,
    hadds', ?_⟩
  constructor
  · rintro ⟨hindex, -⟩ t ht hover
    have hnone := (pastLast_eq_iff hmore).1 hindex t ht
    rw [(hfollows t).2 (.inr hover)] at hnone
    cases hnone
  · intro hnone
    have hindex : pastLast e.follows d.tags = pastLast f.follows d.tags := by
      refine (pastLast_eq_iff hmore).2 fun t ht => ?_
      by_contra hft
      rcases (hfollows t).1 (by simpa using hft) with het | hover
      · rw [eq_false_of_mem_drop_pastLast ht] at het
        cases het
      · exact hnone t ht hover
    refine ⟨hindex, ?_⟩
    rw [Element.settle, DocComment.settle, Element.settle, DocComment.settle, htag, ← hindex]

/-- Only the type parameter and the second value parameter have their tags. -/
def passedOver : Declaration :=
  { kind := .method
    name := "id"
    parameters := [⟨"a", []⟩, ⟨"b", []⟩]
    typeParameters := ["T"]
    doc := some { tags := [
      { kind := .param, fragments := [.text "<T>"] },
      { kind := .param, fragments := [.identifier "b"] }] } }

/-- A policy that leaves `<T>` out has the batch put the tag of `a` in front of it. -/
theorem planAll_disagrees : passedOver.kind = .method ∧ passedOver.doc ≠ none ∧ ∃ e all one l l',
    passedOver.missingElements { methodTypeParameters := false } = .ok [e] ∧
    passedOver.planAll { methodTypeParameters := false } [] = .ok (all, l) ∧
    passedOver.planOne { methodTypeParameters := false } e.role e.position = .ok (one, l') ∧
    all.insertions = [⟨0, e.tag false⟩] ∧ one.insertions = [⟨1, e.tag false⟩] ∧
    l.tags ≠ l'.tags :=
  ⟨rfl, by decide, .valueParameter ["a", "b"] [] 0 "a", _, _, _, _, rfl, rfl, rfl, rfl, rfl,
    by decide⟩

def inPlace : Declaration :=
  { passedOver with doc := some { tags := [
    { kind := .param, fragments := [.text "<T>"] },
    { kind := .param, fragments := [.identifier "a"] },
    { kind := .see }] } }

theorem planAll_inPlace_agrees : ∃ all one l,
    inPlace.planAll { methodTypeParameters := false } [] = .ok (all, l) ∧
    inPlace.planOne { methodTypeParameters := false } .valueParameter 1 = .ok (one, l) ∧
    all.insertions = one.insertions ∧ all.insertions.length = 1 ∧ l.tags.length = 4 := by
  obtain ⟨k, k', all, one, l, l', hall, hadds, hone, hadds', hiff⟩ := planAll_agrees_iff inPlace _
    { methodTypeParameters := false } (.valueParameter ["a", "b"] [] 1 "b") [] rfl rfl rfl
  have hindex : (inPlace.planAll { methodTypeParameters := false } []).map
      (·.1.insertions.map Insertion.index) = .ok [2] := rfl
  obtain rfl : k = 2 := by
    rw [hall] at hindex
    simpa [Except.map, hadds.insertions] using hindex
  obtain ⟨rfl, rfl⟩ := hiff.2 fun u hu hover => by
    obtain rfl : u = { kind := .see } := by simpa [inPlace, tags] using hu
    cases hover.kind
  refine ⟨all, one, l, hall, hone, hadds.insertions.trans hadds'.insertions.symm, ?_, ?_⟩
  · rw [hadds.insertions]
    rfl
  · rw [hadds.left]
    exact congrArg List.length hadds.tags

end DocComment.Declaration

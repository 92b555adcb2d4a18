import DocComment.Proofs.Order

/-! A batch that leaves out the type parameters of a method does not look at their tags, and it may
put a value parameter in front of them. It crosses: that is all that takes a batch out of order
(`ordered_filled`, `not_ordered_filled`). -/

namespace DocComment.Declaration

open Element

variable {d : Declaration} {p : Policy} {e : Element} {ts : List Tag} {fresh : Bool}

def HasParam (ts : List Tag) (a : Text) : Prop := ∃ t ∈ ts, t.kind = .param ∧ t.argument = some a

/-- A type parameter that the policy leaves out has a tag, and the first value parameter has none:
it comes to stand in front. -/
structure Crosses (d : Declaration) (p : Policy) : Prop where
  method : d.kind = .method
  blind : p.methodTypeParameters = false
  generic : ∃ n ∈ d.typeParameters, HasParam d.tags n.angled
  first : ∃ n ∈ d.parameterNames[0]?, ¬ HasParam d.tags n

theorem HasParam.mono {us : List Tag} {a : Text} (hs : ts ⊆ us) (h : HasParam ts a) :
    HasParam us a := by
  obtain ⟨t, ht, hk, ha⟩ := h
  exact ⟨t, hs ht, hk, ha⟩

theorem canonical_eq_param {k : TagKind} : k.canonical = .param ↔ k = .param := by
  cases k <;> decide

theorem documents_iff_hasParam {a : Text} (hk : e.role.tagKind = .param)
    (ha : e.argument = some a) : d.documents e = true ↔ HasParam d.tags a := by
  have hr : e.role ≠ .returned := by
    intro hr
    rw [hr] at hk
    cases hk
  rw [documents, List.any_eq_true, HasParam]
  apply exists_congr
  intro t
  apply and_congr_right
  intro _
  simp only [isDocumentedBy, hk, ha, hr, canonical_eq_param, decide_false, Bool.false_or,
    Bool.and_eq_true, decide_eq_true_iff]

theorem documents_valueParameter {names generics : List Text} {i : Nat} {n : Text} :
    d.documents (.valueParameter names generics i n) = true ↔ HasParam d.tags n :=
  documents_iff_hasParam rfl rfl

theorem documents_typeParameter {names : List Text} {i : Nat} {n : Text} :
    d.documents (.typeParameter names i n) = true ↔ HasParam d.tags n.angled :=
  documents_iff_hasParam rfl rfl

theorem generics_eq_or : d.generics p = d.typeParameters ∨
    (d.kind = .method ∧ p.methodTypeParameters = false ∧ d.generics p = []) := by
  by_cases h : d.kind = .method ∧ p.methodTypeParameters = false
  · exact .inr ⟨h.1, h.2, by rw [generics, if_pos h]⟩
  · exact .inl (by rw [generics, if_neg h])

theorem Takes.withGenerics (hg : d.generics p = d.typeParameters) (he : d.Takes p e) :
    d.Takes p.withGenerics e := by
  have hsame : d.generics p = d.generics p.withGenerics := hg.trans generics_withGenerics.symm
  cases he with
  | typeParameter hk hi =>
    rw [hsame] at hi ⊢
    exact .typeParameter hk hi
  | valueParameter hk hi =>
    rw [hsame]
    exact .valueParameter hk hi
  | returned hk hr => exact .returned hk hr
  | thrownException hk hi hx => exact .thrownException hk hi hx

/-- Type parameters add to what a value parameter follows their own tags and nothing else. -/
theorem follows_valueParameter_iff {names generics : List Text} {i : Nat} {n : Text} {t : Tag} :
    (Element.valueParameter names generics i n).follows t = true ↔
      (Element.valueParameter names [] i n).follows t = true ∨
        ∃ g ∈ generics, t.kind = .param ∧ t.argument = some g.angled := by
  constructor
  · intro ht
    rcases follows_iff.1 ht with hlt | ⟨hk, leading, a, hl, ha, hm⟩
    · exact .inl (follows_iff.2 (.inl hlt))
    · cases hl
      rcases List.mem_append.1 hm with hm | hm
      · exact .inl (follows_iff.2 (.inr ⟨hk, _, a, rfl, ha, by simpa using hm⟩))
      · obtain ⟨g, hg, rfl⟩ := List.mem_map.1 hm
        exact .inr ⟨g, hg, canonical_eq_param.1 hk.symm, ha⟩
  · rintro (ht | ⟨g, hg, hk, ha⟩)
    · rcases follows_iff.1 ht with hlt | ⟨hk, leading, a, hl, ha, hm⟩
      · exact follows_iff.2 (.inl hlt)
      · cases hl
        exact follows_iff.2 (.inr ⟨hk, _, a, rfl, ha, List.mem_append_left _ (by simpa using hm)⟩)
    · exact follows_iff.2 (.inr ⟨(canonical_eq_param.2 hk).symm, _, g.angled, rfl, ha,
        List.mem_append_right _ (List.mem_map_of_mem hg)⟩)

/-- Type parameters do not matter to a value parameter where they have no tags, or where the first
value parameter has one, which stands past theirs. -/
theorem settle_blind (hn : d.Distinct) (h : ts.Pairwise d.Allows) {i : Nat} {n first : Text}
    (h0 : d.parameterNames[0]? = some first)
    (hclear : (∀ g ∈ d.typeParameters, ¬ HasParam ts g.angled) ∨ (0 < i ∧ HasParam ts first)) :
    (Element.valueParameter d.parameterNames [] i n).settle ts =
      (Element.valueParameter d.parameterNames d.typeParameters i n).settle ts := by
  rcases hclear with hnone | ⟨hi, t, ht, hk, ha⟩
  · apply settle_congr
    intro u hu
    rw [Bool.eq_iff_iff, @follows_valueParameter_iff _ d.typeParameters]
    refine (or_iff_left ?_).symm
    rintro ⟨g, hg, hku, hau⟩
    exact hnone g hg ⟨u, hu, hku, hau⟩
  · have hplace : t.placeIn .param d.parameterKeys = some d.typeParameters.length :=
      placeIn_eq_some.2 ⟨canonical_eq_param.2 hk, first, ha, idxOf?_parameter hn h0⟩
    refine settle_congr_of_pairwise h ht ?_ (fun u hu => follows_valueParameter_iff.2 (.inl hu)) ?_
    · exact follows_iff.2 (.inr ⟨(canonical_eq_param.2 hk).symm, _, first, rfl, ha,
        List.mem_append_left _ (mem_take_of_lt h0 hi)⟩)
    · intro u _ hf hallow
      rcases follows_valueParameter_iff.1 hf with hf | ⟨g, hg, hku, hau⟩
      · exact hf
      · -- the tags of type parameters all stand before `t`
        obtain ⟨j, hj⟩ := List.mem_iff_getElem?.1 hg
        have hle := hallow.parameter _ hplace j (placeIn_eq_some.2 ⟨canonical_eq_param.2 hku,
          g.angled, hau, idxOf?_generic hn hj⟩)
        have hlt := (List.getElem?_eq_some_iff.1 hj).1
        omega

theorem Takes.tag_ne_generic (hn : d.Distinct) (hs : d.Spelled p) (hg : d.generics p = [])
    (he : d.Takes p e) {g : Text} (hk : (e.tag fresh).kind = .param) :
    (e.tag fresh).argument ≠ some g.angled := by
  rw [(hn.legible hs).argument_tag he]
  cases he with
  | typeParameter hkind hi => simp [hg] at hi
  | @valueParameter i n hkind hi =>
    intro heq
    have hplain := (hn.parameters_plain n (List.mem_of_getElem? hi)).2
    obtain rfl : n = g.angled := Option.some.inj heq
    exact hplain List.mem_cons_self
  | returned hkind hr => cases hk
  | thrownException hkind hi hx => cases hk

theorem Takes.not_hasParam_settle (hn : d.Distinct) (hs : d.Spelled p) (hg : d.generics p = [])
    (he : d.Takes p e) {g : Text} (h : ¬ HasParam ts g.angled) :
    ¬ HasParam (e.settle ts) g.angled := by
  rintro ⟨t, ht, hk, ha⟩
  rcases mem_settle.1 ht with rfl | hold
  · exact he.tag_ne_generic hn hs hg hk ha
  · exact h ⟨t, hold, hk, ha⟩

theorem pairwise_settle_blind (hn : d.Distinct) (hs : d.Spelled p) (hg : d.generics p = [])
    (he : e ∈ d.missing p) (h : ts.Pairwise d.Allows) (hsub : d.tags ⊆ ts)
    (hclear : (∀ g ∈ d.typeParameters, ¬ HasParam ts g.angled) ∨
      ∀ n ∈ d.parameterNames[0]?, HasParam d.tags n) :
    (e.settle ts).Pairwise d.Allows := by
  obtain ⟨htakes, hdoc⟩ := mem_missing.1 he
  cases htakes with
  | typeParameter hk hi => simp [hg] at hi
  | returned hk hr => exact pairwise_settle_tag hn hs (.returned hk hr) h
  | thrownException hk hi hx => exact pairwise_settle_tag hn hs (.thrownException hk hi hx) h
  | @valueParameter i n hk hi =>
    have hfull : d.Takes p.withGenerics (.valueParameter d.parameterNames d.typeParameters i n) :=
      generics_withGenerics (d := d) (p := p) ▸ .valueParameter hk hi
    have hlt : 0 < d.parameterNames.length := by
      have := (List.getElem?_eq_some_iff.1 hi).1
      omega
    have h0 : d.parameterNames[0]? = some d.parameterNames[0] := List.getElem?_eq_getElem hlt
    have hplace : (∀ g ∈ d.typeParameters, ¬ HasParam ts g.angled) ∨
        (0 < i ∧ HasParam ts d.parameterNames[0]) := by
      refine hclear.imp_right fun hfirst => ⟨Nat.pos_of_ne_zero fun hzero => ?_,
        (hfirst _ h0).mono hsub⟩
      -- an element that lacks its tag is not the first one
      subst hzero
      rw [documents_valueParameter.2 (hfirst n hi)] at hdoc
      cases hdoc
    rw [hg, settle_blind hn h h0 hplace]
    exact pairwise_settle_tag hn hs hfull h

theorem ordered_filled (hn : d.Distinct) (hs : d.Spelled p) (ho : d.Ordered)
    (hc : ¬ d.Crosses p) : (d.filled p).Ordered := by
  have hpair := ordered_iff.1 ho
  have hmem : ∀ e ∈ batchOf (d.missing p), e ∈ d.missing p := fun e he =>
    (batchOf_perm _).mem_iff.1 he
  rw [filled, ordered_withTags]
  rcases generics_eq_or (d := d) (p := p) with hg | ⟨hk, hblind, hg⟩
  · apply settleAll_induction hpair
    intro e he us hus
    exact pairwise_settle_tag hn hs ((mem_missing.1 (hmem e he)).1.withGenerics hg) hus
  · -- no type parameter has a tag then, or the first value parameter has one from the start
    have hclear : (∀ g ∈ d.typeParameters, ¬ HasParam d.tags g.angled) ∨
        ∀ n ∈ d.parameterNames[0]?, HasParam d.tags n := by
      by_contra hboth
      push Not at hboth
      obtain ⟨hgeneric, hfirst⟩ := hboth
      exact hc ⟨hk, hblind, hgeneric, hfirst⟩
    refine (settleAll_induction (I := fun us => us.Pairwise d.Allows ∧ d.tags ⊆ us ∧
        ((∀ g ∈ d.typeParameters, ¬ HasParam us g.angled) ∨
          ∀ n ∈ d.parameterNames[0]?, HasParam d.tags n))
      ⟨hpair, List.Subset.refl _, hclear⟩ ?_).1
    intro e he us hinv
    obtain ⟨hus, hsub, hcl⟩ := hinv
    refine ⟨pairwise_settle_blind hn hs hg (hmem e he) hus hsub hcl,
      List.Subset.trans hsub sublist_settle.subset, hcl.imp_left ?_⟩
    intro hnone g hgen
    exact (mem_missing.1 (hmem e he)).1.not_hasParam_settle hn hs hg (hnone g hgen)

/-- The first value parameter looks at no tag of its own kind, and its place is past those of all
type parameters. -/
theorem Crosses.exists_first (hn : d.Distinct) (hs : d.Spelled p) (hc : d.Crosses p) :
    ∃ e ∈ d.missing p, (∀ t : Tag, e.follows t = true → t.kind.rank < TagKind.param.rank) ∧
      (e.tag false).placeIn .param d.parameterKeys = some d.typeParameters.length := by
  obtain ⟨n, h0, hnone⟩ := hc.first
  have hgen : d.generics p = [] := by rw [generics, if_pos ⟨hc.method, hc.blind⟩]
  have htakes : d.Takes p (.valueParameter d.parameterNames (d.generics p) 0 n) :=
    .valueParameter hc.method h0
  refine ⟨_, mem_missing.2 ⟨htakes, ?_⟩, ?_, ?_⟩
  · by_contra hdoc
    exact hnone (documents_valueParameter.1 (by simpa using hdoc))
  · intro t ht
    rcases follows_iff.1 ht with hlt | ⟨-, names, a, hl, -, hm⟩
    · exact hlt
    · cases hl
      simp [hgen] at hm
  · exact placeIn_eq_some.2 ⟨rfl, n, (hn.legible hs).argument_tag htakes, idxOf?_parameter hn h0⟩

theorem not_ordered_filled (hn : d.Distinct) (hs : d.Spelled p) (ho : d.Ordered)
    (hc : d.Crosses p) : ¬ (d.filled p).Ordered := by
  obtain ⟨e, he, hfollows, hplace⟩ := hc.exists_first hn hs
  obtain ⟨g, hg, t, ht, hkt, hat⟩ := hc.generic
  -- the first value parameter may as well settle first
  have hb := pairwise_missing hn hs
  have hfirst : settleAll (batchOf (d.missing p)) d.tags =
      settleAll ((d.missing p).erase e) (e.settle d.tags) := by
    rw [settleAll_perm hb (batchOf_perm _), ← settleAll_perm hb (List.perm_cons_erase he).symm]
    rfl
  have hpair : [e.tag false, t].Sublist (e.settle d.tags) := by
    refine pair_sublist_settle (ordered_iff.1 ho) ht ?_ ?_
    · by_contra hf
      have hlt := hfollows t (by simpa using hf)
      rw [hkt] at hlt
      exact Nat.lt_irrefl _ hlt
    · intro a _ ha hallow
      have hlt := hfollows a ha
      have hle := hallow.rank
      rw [hkt] at hle
      omega
  rw [filled, ordered_withTags, hfirst]
  intro h
  have hallow : d.Allows (e.tag false) t := by
    simpa using h.sublist (hpair.trans sublist_settleAll)
  obtain ⟨j, hj⟩ := List.mem_iff_getElem?.1 hg
  have hle := hallow.parameter _ hplace j
    (placeIn_eq_some.2 ⟨canonical_eq_param.2 hkt, g.angled, hat, idxOf?_generic hn hj⟩)
  have hlt := (List.getElem?_eq_some_iff.1 hj).1
  omega

end DocComment.Declaration

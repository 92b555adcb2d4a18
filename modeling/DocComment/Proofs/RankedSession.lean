import DocComment.Proofs.Session

/-! Ranks through a session. A tag never settles in front of one that ranks lower, whatever names
it has to follow, so that tags that go up in rank still do so after any steps (`run_ranked`). The
names of the declaration do not matter. -/

namespace DocComment

variable {e : Element} {ts : List Tag} {fresh : Bool}

namespace Element

/-- Tags in the order of their ranks stay so where a new one settles. -/
theorem pairwise_rank_settle (h : ts.Pairwise fun s t => s.kind.rank ≤ t.kind.rank) :
    (DocComment.settle e.follows (e.tag fresh) ts).Pairwise
      fun s t => s.kind.rank ≤ t.kind.rank := by
  refine pairwise_settle h ?_ ?_ ?_
  · intro t _ ht
    exact rank_le_of_anchors_eq_false ht
  · intro t _ ht
    exact rank_le_of_anchors ht
  · intro s _ t _ hst ht
    exact Nat.le_trans hst (rank_le_of_anchors ht)

end Element

namespace Declaration

variable {d d' : Declaration}

/-- There is no doc comment, or its tags go up in rank. -/
def Ranked (d : Declaration) : Prop :=
  ∀ b ∈ d.doc, (b.tags.map (·.kind.rank)).Pairwise (· ≤ ·)

instance (d : Declaration) : Decidable d.Ranked :=
  inferInstanceAs (Decidable (∀ b ∈ d.doc, _))

theorem ranked_iff : d.Ranked ↔ d.tags.Pairwise fun s t => s.kind.rank ≤ t.kind.rank := by
  rw [← List.pairwise_map (f := fun t : Tag => t.kind.rank)]
  cases hd : d.doc with
  | none => simp [Ranked, hd, tags_of_doc_eq_none hd]
  | some b => simp [Ranked, hd, tags_of_doc hd]

theorem Yields.ranked {s : Step} {plan : Plan} (h : d.Yields s plan d') (hr : d.Ranked) :
    d'.Ranked := by
  have hpair := ranked_iff.1 hr
  cases h with
  | idle hs hplan => exact hr
  | batch hd =>
    refine ranked_iff.2 (Element.settleAll_induction hpair fun e _ us hus => ?_)
    exact Element.pairwise_rank_settle hus
  | single he => exact ranked_iff.2 (Element.pairwise_rank_settle hpair)
  | removal hi => exact ranked_iff.2 (hpair.sublist (List.eraseIdx_sublist ..))

/-- Where the tags of a doc comment go up in rank, they do so after each step of any session. A new
tag has no tag of a lower rank behind it, in any list and after any names. -/
theorem run_ranked :
    (∀ (d : Declaration) (ss : List Step), d.kind ∈ DeclarationKind.known → d.Ranked →
      ∀ l, l <+: ss → (d.run l).2.Ranked) ∧
    ∀ (ts : List Tag) (new : Tag) (leading : Option (List Text)),
      insertionIndex ts new.kind leading ≤ ts.length ∧
      ∀ t ∈ ts.drop (insertionIndex ts new.kind leading), ¬ t.kind.rank < new.kind.rank := by
  refine ⟨fun d ss hk hr l _ => ?_, fun ts new leading => ⟨?_, ?_⟩⟩
  · exact run_induction hk hr (fun d s plan d' hr hyields => hyields.ranked hr) l
  · exact insertionIndex_le ts new.kind leading
  · intro t ht
    exact Nat.not_lt.2 (rank_le_of_anchors_eq_false (eq_false_of_mem_drop_pastLast ht))

/-- Names that are empty, that have dots and that come twice. -/
def unclear : Declaration :=
  { kind := .method
    parameters := [⟨"a.b", []⟩, ⟨"a.b", []⟩, ⟨[], []⟩]
    typeParameters := [[], "T", "T"]
    returnType := some ("int" : String)
    thrown := [⟨"E", some ("io.E" : String)⟩, ⟨"F", none⟩]
    doc := some { tags := [
      { kind := .author },
      { kind := .param, fragments := [.identifier "b"] },
      { kind := .exception, fragments := [.identifier "E"] },
      { kind := .see }] } }

def unclearSteps : List Step :=
  [.addOne {} .typeParameter 2, .addAll { methodTypeParameters := false } [], .remove 1,
    .addOne {} .returned (-3), .remove 40, .addAll { qualifiedExceptionNames := true } []]

theorem run_unclear_ranked : unclear.Ranked ∧ (unclear.run unclearSteps).2.Ranked ∧
    (unclear.run unclearSteps).2.tags.length = 11 := by
  have hr : unclear.Ranked := by decide
  exact ⟨hr, run_ranked.1 unclear _ (by decide) hr _ (List.prefix_refl _), by decide⟩

end Declaration

end DocComment

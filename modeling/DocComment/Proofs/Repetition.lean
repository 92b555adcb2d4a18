import DocComment.Proofs.Outcome

/-! A single request made again. It finds the tag that it has placed exactly if the name of its
element can be read back from that tag. Then nothing more happens, however often it is made; else
each time one more tag is placed (`planOne_repeated`). Only an exception whose written name ends
in another segment than its resolved one, under a policy that writes names in full, is of the second
kind among elements with plain names. -/

namespace DocComment.Declaration

open Element

variable {d d' : Declaration} {p : Policy} {e : Element} {r : Role} {i : Int} {plan : Plan}
  {ts : List Tag}

theorem Takes.withTags (he : d.Takes p e) : (d.withTags ts).Takes p e := by
  have hmem : e ∈ d.taggable p := mem_taggable.2 he
  exact mem_taggable.1 hmem

theorem length_tags_insertElement :
    (d.insertElement e).2.tags.length = d.tags.length + 1 :=
  List.length_insertIdx_of_le_length (insertionIndex_le ..) _

theorem documents_insertElement (he : d.documents e = false) :
    (d.insertElement e).2.documents e = e.isDocumentedBy (e.tag d.doc.isNone) := by
  rw [documents, Bool.eq_iff_iff, List.any_eq_true]
  constructor
  · rintro ⟨t, ht, hdoc⟩
    rcases mem_settle.1 ht with rfl | hold
    · exact hdoc
    · exact absurd hdoc (List.any_eq_false.1 he t hold)
  · intro hdoc
    exact ⟨_, mem_settle.2 (.inl rfl), hdoc⟩

theorem documents_insertElement_iff (he : e ∈ d.missing p.withGenerics) :
    (d.insertElement e).2.documents e = true ↔ d.ReadsBack p e.role e.position := by
  obtain ⟨htakes, hdoc⟩ := mem_missing.1 he
  rw [documents_insertElement hdoc, isDocumentedBy_tag_iff]
  exact (at_of_elementAt htakes.elementAt).argument_tag_iff

/-- A tag that does not document the element that it was made for leaves it without one. -/
theorem mem_missing_insertElement (he : e ∈ d.missing p.withGenerics)
    (hr : ¬ d.ReadsBack p e.role e.position) :
    e ∈ (d.insertElement e).2.missing p.withGenerics := by
  refine mem_missing.2 ⟨(mem_missing.1 he).1.withTags, ?_⟩
  rw [Bool.eq_false_iff]
  exact mt (documents_insertElement_iff he).1 hr

theorem run_replicate {s : Step} (h : d.step s = .ok (plan, d)) (n : Nat) :
    d.run (List.replicate n s) = (List.replicate n (.ok plan), d) := by
  induction n with
  | zero => rfl
  | succ n ih =>
    rw [List.replicate_succ, run_cons, attempt_of_step h, ih]
    rfl

/-- Where the tag of an element does not document it, the element lacks its tag ever after. -/
theorem run_replicate_addOne (he : e ∈ d.missing p.withGenerics)
    (hr : ¬ d.ReadsBack p e.role e.position) (n : Nat) :
    ∃ (plans : List Plan) (last : Declaration),
      d.run (List.replicate n (.addOne p e.role e.position)) = (plans.map .ok, last) ∧
      (∀ plan ∈ plans, plan.insertions.length = 1) ∧ last.tags.length = d.tags.length + n := by
  induction n generalizing d with
  | zero => exact ⟨[], d, rfl, by simp, rfl⟩
  | succ n ih =>
    have hstep : d.step (.addOne p e.role e.position) = .ok (_, _) := planOne_of_mem he
    obtain ⟨plans, last, hrun, hplans, hlen⟩ := ih (mem_missing_insertElement he hr) hr
    refine ⟨.inserted (.add e.role) [e.insertion d.tags d.doc.isNone] (d.insertElement e).2.tags ::
      plans, last, ?_, List.forall_mem_cons.2 ⟨rfl, hplans⟩, ?_⟩
    · rw [List.replicate_succ, run_cons, attempt_of_step hstep, hrun]
      rfl
    · rw [hlen, length_tags_insertElement]
      omega

theorem exists_mem_of_inserts (h : d.planOne p r i = .ok (plan, d')) (hne : plan.insertions ≠ []) :
    ∃ e ∈ d.missing p.withGenerics, e.role = r ∧ (e.position : Int) = i := by
  obtain ⟨-, h0, hi, es, e, hes, hat, he⟩ := (planOne_inserts_iff h).1 hne
  obtain ⟨-, rfl⟩ := missingElements_eq_ok.1 hes
  obtain ⟨f, hf, rfl, rfl⟩ := exists_elementAt (p := p) h0 hi
  obtain rfl : f = e := Except.ok.inj (hf.symm.trans hat)
  exact ⟨f, he, rfl, rfl⟩

/-- Once a single request has placed a tag, making it again changes nothing and says so, if the name
of the element can be read back from the tag. Otherwise it places one more tag each time. -/
theorem planOne_repeated (d d' : Declaration) (p : Policy) (r : Role) (i : Int) (plan : Plan)
    (h : d.planOne p r i = .ok (plan, d')) (hne : plan.insertions ≠ []) (n : Nat) :
    (d.ReadsBack p r i → d'.run (List.replicate n (.addOne p r i)) = (List.replicate n
      (.ok (.noted (some (.add r)) (.notMissing r i.toNat d.name) d'.tags)), d')) ∧
    (¬ d.ReadsBack p r i → ∃ (plans : List Plan) (last : Declaration),
      d'.run (List.replicate n (.addOne p r i)) = (plans.map .ok, last) ∧
      (∀ plan ∈ plans, plan.insertions.length = 1) ∧ last.tags.length = d'.tags.length + n) := by
  obtain ⟨e, he, rfl, rfl⟩ := exists_mem_of_inserts h hne
  rw [planOne_of_mem he] at h
  obtain ⟨-, rfl⟩ := Prod.mk.inj (Except.ok.inj h)
  constructor
  · intro hr
    have hsame : (d.insertElement e).2.step (.addOne p e.role e.position) = _ :=
      planOne_of_documents (mem_missing.1 he).1.withTags ((documents_insertElement_iff he).2 hr)
    exact run_replicate hsame n
  · intro hr
    exact run_replicate_addOne (mem_missing_insertElement he hr) hr n

/-- An exception whose resolved name ends in another segment than the written one. -/
def aliased : Declaration :=
  { kind := .method
    name := "load"
    parameters := [⟨"path", []⟩]
    thrown := [⟨"Failure", some ("java.io.IOException" : String)⟩]
    doc := some { tags := [{ kind := .see }] } }

/-- Plain names, and yet the tag of the exception is placed a second time. -/
theorem planOne_aliased_again : (∀ n ∈ aliased.parameterNames ++ aliased.typeParameters,
      n ≠ [] ∧ .char '.' ∉ n) ∧ ∃ first second l l',
    aliased.planOne { qualifiedExceptionNames := true } .thrownException 0 = .ok (first, l) ∧
    l.planOne { qualifiedExceptionNames := true } .thrownException 0 = .ok (second, l') ∧
    first.insertions.map Insertion.tag =
      [{ kind := .throws, fragments := [.identifier "Failure", .text []] }] ∧
    second.insertions.map Insertion.tag = first.insertions.map Insertion.tag ∧
    second.warnings = [] ∧ l'.tags.length = 3 :=
  ⟨by decide, _, _, _, _, rfl, rfl, by decide, by decide, rfl, by decide⟩

theorem planOne_aliased_repeated :
    (∃ first l, aliased.planOne {} .thrownException 0 = .ok (first, l) ∧
      l.run (List.replicate 3 (.addOne {} .thrownException 0)) = (List.replicate 3 (.ok
        (.noted (some (.add .thrownException)) (.notMissing .thrownException 0 aliased.name)
          l.tags)), l)) ∧
    (aliased.run (List.replicate 4
      (.addOne { qualifiedExceptionNames := true } .thrownException 0))).2.tags.length = 5 := by
  have hsimple : aliased.planOne {} .thrownException 0 = .ok (_, _) := rfl
  have hfull : aliased.planOne { qualifiedExceptionNames := true } .thrownException 0 =
    .ok (_, _) := rfl
  obtain ⟨hnothing, -⟩ := planOne_repeated _ _ _ _ _ _ hsimple (by decide) 3
  obtain ⟨-, hmore⟩ := planOne_repeated _ _ _ _ _ _ hfull (by decide) 3
  refine ⟨⟨_, _, hsimple, hnothing (by unfold ReadsBack; decide)⟩, ?_⟩
  obtain ⟨plans, last, hrun, -, hlen⟩ := hmore (by unfold ReadsBack; decide)
  have hstep : aliased.step (.addOne { qualifiedExceptionNames := true } .thrownException 0) =
    .ok (_, _) := hfull
  rw [List.replicate_succ, run_cons, attempt_of_step hstep, hrun]
  exact hlen

end DocComment.Declaration

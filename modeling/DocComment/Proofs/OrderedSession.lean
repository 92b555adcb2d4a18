import DocComment.Proofs.Crossing
import Mathlib.Data.List.Induction

/-! Order through a session: all steps but a batch that crosses keep the tags in order, so that a
session is in order to its end exactly if none of its batches crosses (`run_ordered`). -/

namespace DocComment.Declaration

open Element

variable {d : Declaration} {p : Policy} {e : Element}

theorem ordered_insertElement (hn : d.Distinct) (hs : d.Spelled p) (ho : d.Ordered)
    (he : d.Takes p.withGenerics e) : (d.insertElement e).2.Ordered := by
  rw [insertElement, ordered_withTags, apply_insertion]
  exact pairwise_settle_tag hn hs he (ordered_iff.1 ho)

theorem Yields.ordered_iff_not_crosses {s : Step} {plan : Plan} {d' : Declaration}
    (h : d.Yields s plan d') (hn : d.Distinct) (hs : ∀ p ∈ s.policy?, d.Spelled p)
    (ho : d.Ordered) : d'.Ordered ↔ ∀ p indent, s = .addAll p indent → ¬ d.Crosses p := by
  cases h with
  | idle hidle hplan =>
    refine iff_of_true ho fun p indent heq hc => ?_
    obtain ⟨g, -, t, ht, -⟩ := hc.generic
    rw [tags_of_doc_eq_none (hidle p indent heq)] at ht
    cases ht
  | @batch p indent b hd =>
    constructor
    · intro h q i heq hc
      cases heq
      exact not_ordered_filled hn (hs p rfl) ho hc h
    · intro h
      exact ordered_filled hn (hs p rfl) ho (h p indent rfl)
  | single he =>
    refine iff_of_true ?_ fun p indent heq => by cases heq
    exact ordered_insertElement hn (hs _ rfl) ho (mem_missing.1 he).1
  | removal hi =>
    refine iff_of_true ?_ fun p indent heq => by cases heq
    exact ordered_withTags.2 ((ordered_iff.1 ho).sublist (List.eraseIdx_sublist ..))

theorem ordered_attempt_iff {s : Step} (hk : d.kind ∈ DeclarationKind.known) (hn : d.Distinct)
    (hs : ∀ p ∈ s.policy?, d.Spelled p) (ho : d.Ordered) :
    (d.attempt s).2.Ordered ↔ ∀ p indent, s = .addAll p indent → ¬ d.Crosses p := by
  rcases attempt_cases hk s with ⟨plan, hyields⟩ | ⟨ha, hsame⟩
  · exact hyields.ordered_iff_not_crosses hn hs ho
  · rw [hsame]
    refine iff_of_true ho fun p indent heq => ?_
    rw [heq] at ha
    exact absurd ha id

theorem ordered_run_concat_iff {l : List Step} {s : Step} (hk : d.kind ∈ DeclarationKind.known)
    (hn : d.Distinct) (hs : ∀ p ∈ s.policy?, d.Spelled p) (ho : (d.run l).2.Ordered) :
    (d.run (l ++ [s])).2.Ordered ↔
      ∀ p indent, s = .addAll p indent → ¬ (d.run l).2.Crosses p := by
  obtain ⟨doc, hdoc⟩ := exists_doc_run hk l
  rw [run_concat]
  rw [hdoc] at ho ⊢
  exact ordered_attempt_iff (d := { d with doc }) hk (hn.with_doc doc) hs ho

def KeepsOrder (d : Declaration) (ss : List Step) : Prop := ∀ l, l <+: ss → (d.run l).2.Ordered

/-- No batch of a session crosses in the declaration that it finds. -/
def NeverCrosses (d : Declaration) (ss : List Step) : Prop :=
  ∀ l p indent, l ++ [.addAll p indent] <+: ss → ¬ (d.run l).2.Crosses p

/-- A session on a declaration in order stays in order exactly if no batch crosses, as where no
batch leaves type parameters out. -/
theorem run_ordered (d : Declaration) (ss : List Step) (hk : d.kind ∈ DeclarationKind.known)
    (hn : d.Distinct) (hs : ∀ s ∈ ss, ∀ p ∈ s.policy?, d.Spelled p) (ho : d.Ordered) :
    (d.KeepsOrder ss ↔ d.NeverCrosses ss) ∧
      ((∀ p indent, .addAll p indent ∈ ss → p.methodTypeParameters = true) → d.KeepsOrder ss) := by
  have hlast : ∀ {l s}, l ++ [s] <+: ss → s ∈ ss := fun hpre => hpre.subset (by simp)
  have hinit : ∀ {l : List Step} {s}, l ++ [s] <+: ss → l <+: ss :=
    fun hpre => (List.prefix_append _ _).trans hpre
  have hiff : d.KeepsOrder ss ↔ d.NeverCrosses ss := by
    constructor
    · intro h l p indent hpre
      exact (ordered_run_concat_iff hk hn (hs _ (hlast hpre)) (h l (hinit hpre))).1 (h _ hpre)
        p indent rfl
    · intro h l
      -- on the steps, from the last one
      induction l using List.reverseRecOn with
      | nil => exact fun _ => ho
      | append_singleton l s ih =>
        intro hpre
        refine (ordered_run_concat_iff hk hn (hs _ (hlast hpre)) (ih (hinit hpre))).2 ?_
        rintro p indent rfl
        exact h l p indent hpre
  refine ⟨hiff, fun h => hiff.2 fun l p indent hpre hc => ?_⟩
  have hflag := h p indent (hlast hpre)
  rw [hc.blind] at hflag
  cases hflag

/-- A tag of a type parameter, and a value parameter that lacks its own. -/
def crossed : Declaration :=
  { kind := .method
    name := "id"
    parameters := [⟨"a", []⟩]
    typeParameters := ["T"]
    thrown := [⟨"java.io.IOException", some ("java.io.IOException" : String)⟩]
    doc := some { tags := [{ kind := .param, fragments := [.text "<T>"] }] } }

/-- A single request minds the type parameter whatever its policy says. -/
theorem run_crossed_ordered : crossed.Ordered ∧
    crossed.KeepsOrder [.addOne { methodTypeParameters := false } .valueParameter 0,
      .addAll { qualifiedExceptionNames := true } [], .remove (-1), .remove 0, .addAll {} []] :=
  ⟨by decide, (run_ordered crossed _ (by decide) (by decide) (by decide) (by decide)).2 <| by
    intro p indent h
    simp only [List.mem_cons, Step.addAll.injEq, reduceCtorEq, List.not_mem_nil, false_or,
      or_false] at h
    rcases h with ⟨rfl, -⟩ | ⟨rfl, -⟩ <;> rfl⟩

theorem crossed_not_ordered : crossed.kind ∈ DeclarationKind.known ∧ crossed.Distinct ∧
    (∀ p, crossed.Spelled p) ∧ crossed.Ordered ∧
    (∃ plan, (crossed.run [.addAll { methodTypeParameters := false } []]).1 = [.ok plan]) ∧
    ¬ (crossed.run [.addAll { methodTypeParameters := false } []]).2.Ordered :=
  ⟨by decide, by decide, fun p _ => by decide, by decide, ⟨_, rfl⟩, by decide⟩

end DocComment.Declaration

import DocComment.Proofs.Crossing
import DocComment.Proofs.Outcome

/-! What a single request takes from the policy: the spelling of exceptions, and nothing else. The
type parameters that a policy leaves out are still offered one by one, and a value parameter goes
behind the tags of them all (`planOne_indifferent`). -/

namespace DocComment.Declaration

open Element

variable {d d' : Declaration} {p q : Policy} {e : Element} {r : Role} {i : Int} {plan : Plan}

theorem elementAt_congr
    (h : p.qualifiedExceptionNames = q.qualifiedExceptionNames ∨ r ≠ .thrownException) :
    d.elementAt r i p = d.elementAt r i q := by
  cases r with
  | thrownException =>
    have hq : p.qualifiedExceptionNames = q.qualifiedExceptionNames :=
      h.resolve_right fun hr => hr rfl
    simp only [elementAt, hq]
  | _ => rfl

/-- The flag for type parameters is overridden where it would count. -/
theorem isMissing_congr : d.isMissing e p = d.isMissing e q := by
  have hsame : ∀ p q : Policy,
      (∃ c ∈ d.missing (p.offering e.role), c.role = e.role ∧ c.position = e.position) →
      ∃ c ∈ d.missing (q.offering e.role), c.role = e.role ∧ c.position = e.position := by
    rintro p q ⟨c, hc, hrole, hpos⟩
    obtain ⟨f, hf, hfr, hfp⟩ := exists_mem_missing (q := q.offering e.role) hc fun hr => by
      have he : e.role = .typeParameter := hrole.symm.trans hr
      rw [he, Policy.offering, Policy.offering, if_pos rfl, if_pos rfl, generics_withGenerics,
        generics_withGenerics]
    exact ⟨f, hf, hfr.trans hrole, hfp.trans hpos⟩
  by_cases hk : d.kind ∈ DeclarationKind.known
  · rw [isMissing_of_known hk, isMissing_of_known hk, decide_eq_decide.2 ⟨hsame p q, hsame q p⟩]
  · cases hkind : d.kind with
    | unknown w => simp only [isMissing, missingElements, checkKind, hkind]
    | _ => exact absurd (by rw [hkind]; decide) hk

theorem planOne_congr_policy
    (h : p.qualifiedExceptionNames = q.qualifiedExceptionNames ∨ r ≠ .thrownException) :
    d.planOne p r i = d.planOne q r i := by
  have hmissing : ∀ e, d.isMissing e p = d.isMissing e q := fun e => isMissing_congr
  simp only [planOne, elementAt_congr h, hmissing]

theorem exists_planOne_typeParameter {i : Nat} {n : Text} (hk : d.kind = .method ∨ d.kind = .type)
    (hi : d.typeParameters[i]? = some n) (hnone : ¬ HasParam d.tags n.angled) : ∃ k l,
      d.planOne p .typeParameter i = .ok (.inserted (.add .typeParameter)
        [⟨k, (Element.typeParameter d.typeParameters i n).tag d.doc.isNone⟩] l.tags, l) ∧
      k ≤ d.tags.length ∧ l.tags = d.tags.insertIdx k
        ((Element.typeParameter d.typeParameters i n).tag d.doc.isNone) := by
  have htakes := Takes.typeParameter (p := p.withGenerics) hk (generics_withGenerics.symm ▸ hi)
  rw [generics_withGenerics] at htakes
  have hdoc : d.documents (.typeParameter d.typeParameters i n) = false :=
    Bool.eq_false_iff.2 (mt documents_typeParameter.1 hnone)
  have hadds := adds_inserted (d := d) (e := .typeParameter d.typeParameters i n)
    (.add .typeParameter)
  exact ⟨_, _, planOne_of_mem (mem_missing.2 ⟨htakes, hdoc⟩), hadds.inBounds, hadds.tags⟩

theorem insertions_valueParameter (h : d.planOne p .valueParameter i = .ok (plan, d'))
    (hne : plan.insertions ≠ []) : ∃ e names, d.elementAt .valueParameter i p = .ok e ∧
      e.leading = some names ∧ (∀ n ∈ d.typeParameters, n.angled ∈ names) ∧ ∃ k,
        plan.Adds ⟨k, e.tag d.doc.isNone⟩ d d' ∧ k = insertionIndex d.tags .param e.leading ∧
        ∀ n ∈ d.typeParameters, ∀ (j : Nat) t, d.tags[j]? = some t → t.kind = .param →
          t.argument = some n.angled → j < k := by
  obtain ⟨e, hat, -, hadds⟩ := planOne_adds h hne
  refine ⟨e, ?_⟩
  cases at_of_elementAt hat with
  | valueParameter hi =>
    refine ⟨_, hat, rfl, fun n hn => ?_, _, hadds, rfl, fun n hn j t hj hk ha => ?_⟩
    · exact List.mem_append_right _ (List.mem_map_of_mem hn)
    · exact pastLast_le_iff.1 (Nat.le_refl _) j t hj
        (follows_valueParameter_iff.2 (.inr ⟨n, hn, hk, ha⟩))

/-- Two policies that spell exceptions alike make the same plan of a single request, and any two
policies do where no exception is asked for. What a policy leaves out of the batch is offered all
the same, and a value parameter has the names of all type parameters before its own. -/
theorem planOne_indifferent (d : Declaration) (p : Policy) :
    (∀ q r i, p.qualifiedExceptionNames = q.qualifiedExceptionNames ∨ r ≠ .thrownException →
      d.planOne p r i = d.planOne q r i) ∧
    (d.kind = .method → p.methodTypeParameters = false →
      (∀ e ∈ d.missing p, e.role ≠ .typeParameter) ∧
      ∀ (i : Nat) n, d.typeParameters[i]? = some n → ¬ HasParam d.tags n.angled → ∃ k l,
        d.planOne p .typeParameter i = .ok (.inserted (.add .typeParameter)
          [⟨k, (Element.typeParameter d.typeParameters i n).tag d.doc.isNone⟩] l.tags, l) ∧
        k ≤ d.tags.length ∧ l.tags = d.tags.insertIdx k
          ((Element.typeParameter d.typeParameters i n).tag d.doc.isNone)) ∧
    ∀ i plan l, d.planOne p .valueParameter i = .ok (plan, l) → plan.insertions ≠ [] →
      ∃ e names, d.elementAt .valueParameter i p = .ok e ∧
      e.leading = some names ∧ (∀ n ∈ d.typeParameters, n.angled ∈ names) ∧ ∃ k,
        plan.Adds ⟨k, e.tag d.doc.isNone⟩ d l ∧ k = insertionIndex d.tags .param e.leading ∧
        ∀ n ∈ d.typeParameters, ∀ (j : Nat) t, d.tags[j]? = some t → t.kind = .param →
          t.argument = some n.angled → j < k := by
  refine ⟨fun q r i h => planOne_congr_policy h, fun hk hp => ⟨fun e he hr => ?_, ?_⟩,
    fun i plan l h hne => insertions_valueParameter h hne⟩
  · cases (mem_missing.1 he).1 with
    | typeParameter _ hi => simp [generics, hk, hp] at hi
    | _ => cases hr
  · exact fun i n hi hnone => exists_planOne_typeParameter (.inl hk) hi hnone

/-- The second type parameter, which the policy leaves out, and the second value parameter. -/
theorem planOne_scattered_indifferent :
    (∃ k l, scattered.planOne { methodTypeParameters := false } .typeParameter 1 =
        .ok (.inserted (.add .typeParameter)
          [⟨k, { kind := .param, fragments := [.text "<V>", .text []] }⟩] l.tags, l) ∧
      k ≤ 5 ∧ l.tags = scattered.tags.insertIdx k
        { kind := .param, fragments := [.text "<V>", .text []] }) ∧
    scattered.planOne { methodTypeParameters := false } .valueParameter 1 =
      scattered.planOne { stubPlaceholder := "Describe.", qualifiedExceptionNames := true }
        .valueParameter 1 := by
  obtain ⟨hsame, hoffered, -⟩ := planOne_indifferent scattered { methodTypeParameters := false }
  refine ⟨?_, hsame _ _ _ (.inr (by decide))⟩
  exact (hoffered rfl rfl).2 1 "V" rfl (by unfold HasParam; decide)

end DocComment.Declaration

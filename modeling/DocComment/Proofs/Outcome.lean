import DocComment.Proofs.Session

/-! What a plan comes to. A request is refused, or it is noted that there is nothing to do, or there
is a new comment, or there are insertions: one of these and no two. The declaration changes with
insertions alone, and then by them alone (`plan_outcomes`). -/

namespace DocComment

namespace Plan

variable {d : Declaration}

end Plan

namespace Declaration

variable {d d' : Declaration} {p : Policy} {e : Element} {r : Role} {i : Int} {plan : Plan}

theorem refuse_eq_ok {c : Refusal} (h : d.refuse c = .ok (plan, d')) :
    d' = d ∧ ∃ m, plan = .refused m := by
  unfold refuse at h
  split at h
  next m _ =>
    cases h
    exact ⟨rfl, m, rfl⟩
  next => cases h

/-- All that a single request comes to: the declaration as it was, or the tag of an element that is
looked up and found missing. -/
theorem planOne_eq_ok (h : d.planOne p r i = .ok (plan, d')) :
    (d' = d ∧ ((∃ m, plan = .refused m) ∨ ∃ l n ts, plan = .noted l n ts)) ∨
      ((d.kind = .method ∨ r = .typeParameter) ∧ 0 ≤ i ∧ i < d.count r ∧
        ∃ e, d.elementAt r i p = .ok e ∧ d.isMissing e p = .ok true ∧
          d' = (d.insertElement e).2 ∧
          plan = .inserted (.add r) [e.insertion d.tags d.doc.isNone] d'.tags) := by
  unfold planOne at h
  split at h
  · split at h
    next => cases h
    next =>
      obtain ⟨hsame, hm⟩ := refuse_eq_ok h
      exact .inl ⟨hsame, .inl hm⟩
  next hrole =>
    split at h
    next =>
      obtain ⟨hsame, hm⟩ := refuse_eq_ok h
      exact .inl ⟨hsame, .inl hm⟩
    next hin =>
      split at h
      · cases h
      next e hat =>
        split at h
        next => cases h
        next =>
          cases h
          exact .inl ⟨rfl, .inr ⟨_, _, _, rfl⟩⟩
        next hm =>
          cases h
          have hkind : d.kind = .method ∨ r = .typeParameter := by
            by_contra hno
            exact hrole (not_or.1 hno)
          exact .inr ⟨hkind, by omega, by omega, e, hat, hm, rfl, rfl⟩

theorem planOne_adds (h : d.planOne p r i = .ok (plan, d')) (hne : plan.insertions ≠ []) :
    ∃ e, d.elementAt r i p = .ok e ∧ d.isMissing e p = .ok true ∧
      plan.Adds (e.insertion d.tags d.doc.isNone) d d' := by
  rcases planOne_eq_ok h with ⟨-, ⟨m, rfl⟩ | ⟨l, n, ts, rfl⟩⟩ | ⟨-, -, -, e, hat, hm, rfl, rfl⟩
  · exact absurd rfl hne
  · exact absurd rfl hne
  · exact ⟨e, hat, hm, adds_inserted _⟩

/-- A single request inserts exactly if its element is among those that lack a tag where no type
parameters are left out. -/
theorem planOne_inserts_iff (h : d.planOne p r i = .ok (plan, d')) : plan.insertions ≠ [] ↔
    (d.kind = .method ∨ r = .typeParameter) ∧ 0 ≤ i ∧ i < d.count r ∧
      ∃ es e, d.missingElements p.withGenerics = .ok es ∧ d.elementAt r i p = .ok e ∧ e ∈ es := by
  constructor
  · intro hne
    rcases planOne_eq_ok h with ⟨-, ⟨m, rfl⟩ | ⟨l, n, ts, rfl⟩⟩ |
      ⟨hrole, h0, hi, e, hat, hm, -, -⟩
    · exact absurd rfl hne
    · exact absurd rfl hne
    · have hk := known_of_isMissing hm
      obtain ⟨f, hf, rfl, rfl⟩ := exists_elementAt (p := p) h0 hi
      obtain rfl : f = e := Except.ok.inj (hf.symm.trans hat)
      exact ⟨hrole, h0, hi, _, f, missingElements_of_known hk, hat,
        mem_missing_of_isMissing hk hat hm⟩
  · rintro ⟨-, h0, hi, es, e, hes, hat, he⟩
    obtain ⟨-, rfl⟩ := missingElements_eq_ok.1 hes
    obtain ⟨f, hf, rfl, rfl⟩ := exists_elementAt (p := p) h0 hi
    obtain rfl : f = e := Except.ok.inj (hf.symm.trans hat)
    rw [planOne_of_mem he] at h
    obtain ⟨rfl, -⟩ := Prod.mk.inj (Except.ok.inj h)
    exact List.cons_ne_nil _ _

end Declaration

end DocComment

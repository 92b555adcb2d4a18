import DocComment.Proofs.Precedence
import DocComment.Proofs.Session
import Mathlib.Data.List.Induction

/-! Single requests in any order do what the batch does: each of them adds the tag of its element,
whichever came before, and the tags are the same in the end (`run_confluent`). -/

namespace DocComment.Declaration

open Element

variable {d : Declaration} {p : Policy} {e : Element} {b : Block} {ts : List Tag}
  {es : List Element}

theorem mem_missing_withTags (he : e ∈ d.missing p) (ht : ∀ t ∈ ts, t ∉ d.tags →
    e.isDocumentedBy t = false) : e ∈ (d.withTags ts).missing p := by
  obtain ⟨htakes, hdoc⟩ := mem_missing.1 he
  rw [missing_withTags, List.mem_filter]
  refine ⟨mem_taggable.2 htakes, ?_⟩
  rw [Bool.not_eq_true', List.any_eq_false]
  intro t hts
  by_cases hold : t ∈ d.tags
  · exact List.any_eq_false.1 hdoc t hold
  · simp [ht t hts hold]

/-- The declaration behind single requests for the tags of `es`, one after the other. -/
def asked (d : Declaration) (p : Policy) (es : List Element) : Declaration :=
  (d.run (es.map fun e => .addOne p e.role e.position)).2

theorem asked_concat {plan : Plan} {d' : Declaration}
    (h : (d.asked p es).planOne p e.role e.position = .ok (plan, d')) :
    d.asked p (es ++ [e]) = d' := by
  have hstep : (d.asked p es).step (.addOne p e.role e.position) = .ok (plan, d') := h
  rw [asked, List.map_append, List.map_singleton, run_concat]
  exact congrArg Prod.snd (attempt_of_step hstep)

/-- An element still lacks its tag behind elements whose tags do not document it. -/
theorem mem_missing_settleAll (hes : (es ++ [e]).Pairwise fun e f =>
      f.isDocumentedBy (e.tag false) = false) (he : e ∈ d.missing p) :
    e ∈ (d.withTags (settleAll es d.tags)).missing p := by
  refine mem_missing_withTags he fun t ht hnew => ?_
  rcases mem_settleAll.1 ht with ⟨f, hf, rfl⟩ | hold
  · exact (List.pairwise_append.1 hes).2.2 f hf e (List.mem_singleton.2 rfl)
  · exact absurd hold hnew

/-- Elements that lack their tags and do not document one another can be asked for in turn. -/
theorem asked_eq (hd : d.doc = some b) (hes : es.Pairwise fun e f =>
      f.isDocumentedBy (e.tag false) = false)
    (hm : ∀ e ∈ es, e ∈ d.missing p.withGenerics) :
    d.asked p es = d.withTags (settleAll es d.tags) := by
  -- on the requests, from the last one
  induction es using List.reverseRecOn with
  | nil => exact (withTags_self hd).symm
  | append_singleton es e ih =>
    have hbefore := ih (List.pairwise_append.1 hes).1 fun f hf => hm f (List.mem_append_left _ hf)
    have hone := planOne_of_mem (mem_missing_settleAll hes
      (hm e (List.mem_append_right _ (List.mem_singleton.2 rfl))))
    rw [insertElement_of_doc (doc_withTags hd), ← hbefore] at hone
    rw [asked_concat hone, hbefore, settleAll, settleAll, List.foldl_append]
    rfl

/-- Asked for one by one in any order, the elements that lack a tag get one each, among the tags
that are there by then. The declaration ends as the batch leaves it, whose insertions make its
tags. -/
theorem run_confluent (d : Declaration) (b : Block) (p : Policy) (es : List Element) (indent : Text)
    (hk : d.kind ∈ DeclarationKind.known) (hd : d.doc = some b)
    (hp : p.methodTypeParameters = true) (hn : d.Distinct) (hs : d.Spelled p)
    (hes : es.Perm (d.missing p)) :
    (∀ l e, l ++ [e] <+: es → ∃ plan k,
      (d.asked p l).planOne p e.role e.position = .ok (plan, d.asked p (l ++ [e])) ∧
      plan.Adds ⟨k, e.tag false⟩ (d.asked p l) (d.asked p (l ++ [e]))) ∧
    ∃ batch, d.planAll p indent = .ok (batch, d.asked p es) ∧
      Replays d.tags batch.insertions (d.asked p es).tags ∧
      (batch.insertions.map Insertion.tag).Perm (es.map fun e => e.tag false) := by
  have hw : p.withGenerics = p := by
    rw [Policy.withGenerics, ← hp]
  have hb := pairwise_missing hn hs
  have hapart : es.Pairwise fun e f => f.isDocumentedBy (e.tag false) = false := by
    have hboth := (hes.pairwise_iff fun h => And.symm h).2 (hb.imp fun h => ⟨h.apart, h.apart'⟩)
    exact hboth.imp And.left
  have hmissing : ∀ e ∈ es, e ∈ d.missing p.withGenerics := by
    intro e he
    rw [hw]
    exact hes.mem_iff.1 he
  constructor
  · intro l e hpre
    have hsub := hpre.sublist
    have hlast : e ∈ es := hsub.subset (List.mem_append_right _ (List.mem_singleton.2 rfl))
    have hl := asked_eq (p := p) hd (List.pairwise_append.1 (hapart.sublist hsub)).1
      fun f hf => hmissing f (hsub.subset (List.mem_append_left _ hf))
    have hone := planOne_of_mem (mem_missing_settleAll (hapart.sublist hsub) (hmissing e hlast))
    have hdoc : (d.withTags (settleAll l d.tags)).doc =
        some { b with tags := settleAll l d.tags } := doc_withTags hd
    rw [← hl] at hone hdoc
    have hfresh : (d.asked p l).doc.isNone = false := by rw [hdoc]; rfl
    have hadds := adds_inserted (d := d.asked p l) (e := e) (.add e.role)
    have hnext := asked_concat hone
    rw [hfresh] at hone hadds
    rw [← hnext] at hadds
    exact ⟨_, _, by rw [hone, ← hnext], hadds⟩
  · have hall := planAll_eq (p := p) hk hd indent
    have hsame : d.filled p = d.asked p es := by
      rw [asked_eq hd hapart hmissing, filled, settleAll_perm hb (batchOf_perm _),
        ← settleAll_perm hb hes]
    have hreplays : Replays d.tags (d.batchInsertions p) (d.filled p).tags :=
      replays_insertionsFor ..
    have htags : ((d.batchInsertions p).map Insertion.tag).Perm (es.map fun e => e.tag false) := by
      rw [batchInsertions, map_tag_insertionsFor]
      exact ((batchOf_perm _).trans hes.symm).map _
    rw [hsame] at hall hreplays
    refine ⟨_, hall, ?_, ?_⟩
    · rwa [insertions_batchPlan]
    · rwa [insertions_batchPlan]

/-- The last element that lacks a tag is the first one asked for. -/
theorem run_scattered_confluent : ∃ batch plan e k,
    scattered.planAll {} [] = .ok (batch, scattered.asked {} (scattered.missing {}).reverse) ∧
    Replays scattered.tags batch.insertions
      (scattered.asked {} (scattered.missing {}).reverse).tags ∧
    batch.insertions.length = 4 ∧
    scattered.planOne {} .thrownException 0 = .ok (plan, scattered.asked {} [e]) ∧
    plan.Adds ⟨k, e.tag false⟩ scattered (scattered.asked {} [e]) := by
  obtain ⟨hsteps, batch, hall, hreplays, htags⟩ := run_confluent scattered _ {}
    (scattered.missing {}).reverse [] (by decide) rfl rfl (by decide) (by decide)
    (List.reverse_perm _)
  obtain ⟨plan, k, hone, hadds⟩ := hsteps [] (.thrownException scattered.thrown false 0
    ⟨"IOException", some ("java.io.IOException" : String)⟩) (by decide)
  have hlen : batch.insertions.length = (scattered.missing {}).length := by
    simpa using htags.length_eq
  exact ⟨batch, plan, _, k, hall, hreplays, hlen, hone, hadds⟩

end DocComment.Declaration

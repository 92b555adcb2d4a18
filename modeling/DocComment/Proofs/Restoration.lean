import DocComment.Proofs.Convergence
import DocComment.Proofs.Precedence
import DocComment.Proofs.Session
import Mathlib.Data.List.Nodup

/-! Removal undone by the batch. A tag that a batch has placed and that is then taken out is all
that the next batch finds missing, and it comes back in its old place (`planAll_restores`). -/

namespace DocComment.Declaration

open Element

variable {d : Declaration} {p : Policy} {e : Element} {b : Block}

/-- The declaration after a batch that leaves `e` out. -/
def filledBut (d : Declaration) (p : Policy) (e : Element) : Declaration :=
  d.withTags (settleAll ((d.missing p).erase e) d.tags)

/-- The one that was left out may as well settle last. -/
theorem filled_eq_settle (hn : d.Distinct) (hs : d.Spelled p) (he : e ∈ d.missing p) :
    d.filled p = (d.filledBut p e).withTags (e.settle (d.filledBut p e).tags) := by
  have hb := pairwise_missing hn hs
  have hlast : ((d.missing p).erase e ++ [e]).Perm (d.missing p) :=
    (List.perm_append_singleton e _).trans (List.perm_cons_erase he).symm
  have htags : settleAll (batchOf (d.missing p)) d.tags =
      e.settle (settleAll ((d.missing p).erase e) d.tags) := by
    rw [settleAll_perm hb (batchOf_perm _), ← settleAll_perm hb hlast, settleAll, settleAll,
      List.foldl_append]
    rfl
  rw [filled, htags]
  rfl

theorem documents_filledBut (hn : d.Distinct) (hs : d.Spelled p) (he : e ∈ d.missing p) :
    (d.filledBut p e).documents e = false := by
  have hapart := List.pairwise_cons.1
    (pairwise_apart (pairwise_missing hn hs) (List.perm_cons_erase he).symm)
  rw [documents, List.any_eq_false]
  intro t ht
  rcases mem_settleAll.1 ht with ⟨f, hf, rfl⟩ | hold
  · simp [(hapart.1 f hf).1]
  · exact List.any_eq_false.1 (mem_missing.1 he).2 t hold

theorem missing_filledBut (hn : d.Distinct) (hs : d.Spelled p) (he : e ∈ d.missing p) :
    (d.filledBut p e).missing p = [e] := by
  have hsub : ((d.filledBut p e).missing p).Sublist (d.missing p) :=
    missing_sublist sublist_settleAll.subset
  have hnodup : (d.missing p).Nodup := (pairwise_missing hn hs).imp Before.ne
  have hmem : ∀ f, f ∈ (d.filledBut p e).missing p ↔ f ∈ [e] := by
    intro f
    rw [List.mem_singleton]
    constructor
    · intro hf
      by_contra hne
      have hother : f ∈ (d.missing p).erase e := (List.mem_erase_of_ne hne).2 (hsub.subset hf)
      have hdoc : (d.filledBut p e).documents f = true :=
        List.any_eq_true.2 ⟨f.tag false, mem_settleAll.2 (.inl ⟨f, hother, rfl⟩),
          (hn.legible hs).isDocumentedBy_tag (mem_missing.1 (hsub.subset hf)).1⟩
      rw [(mem_missing.1 hf).2] at hdoc
      cases hdoc
    · rintro rfl
      have htakes : f ∈ d.taggable p := mem_taggable.2 (mem_missing.1 he).1
      exact List.mem_filter.2 ⟨htakes, by simp [documents_filledBut hn hs he]⟩
  exact List.perm_singleton.1
    ((List.perm_ext_iff_of_nodup (hnodup.sublist hsub) (List.nodup_singleton e)).2 hmem)

theorem planAll_filledBut (hk : d.kind ∈ DeclarationKind.known) (hd : d.doc = some b)
    (hn : d.Distinct) (hs : d.Spelled p) (he : e ∈ d.missing p) (indent : Text) :
    (d.filledBut p e).planAll p indent = .ok (.inserted .addAll
      [⟨pastLast e.follows (d.filledBut p e).tags, e.tag false⟩] (d.filled p).tags,
        d.filled p) := by
  have hm := missing_filledBut hn hs he
  have hfilled : (d.filledBut p e).filled p = d.filled p := by
    rw [filled_eq_settle hn hs he, filled, hm, batchOf_singleton]
    rfl
  have hk' : (d.filledBut p e).kind ∈ DeclarationKind.known := hk
  have hd' : (d.filledBut p e).doc = some { b with tags := (d.filledBut p e).tags } :=
    doc_withTags hd
  rw [planAll_eq hk' hd', batchPlan_of_ne_nil (hm ▸ List.cons_ne_nil _ _), hfilled,
    batchInsertions, hm, batchOf_singleton]
  rfl

/-- A tag that the batch placed stands in one place only, and without it the tags are those of a
batch that leaves its element out. -/
theorem planRemove_filled (hn : d.Distinct) (hs : d.Spelled p) (he : e ∈ d.missing p) {k : Nat}
    (hk : (d.filled p).tags[k]? = some (e.tag false)) :
    k = pastLast e.follows (d.filledBut p e).tags ∧ (d.filled p).planRemove k =
      .ok (.removed ((d.filled p).tags.eraseIdx k), d.filledBut p e) := by
  have hnew : e.tag false ∉ (d.filledBut p e).tags := by
    intro hin
    have hdoc : (d.filledBut p e).documents e = true := List.any_eq_true.2 ⟨_, hin,
      (hn.legible hs).isDocumentedBy_tag (mem_missing.1 he).1⟩
    rw [documents_filledBut hn hs he] at hdoc
    cases hdoc
  have hlt := (List.getElem?_eq_some_iff.1 hk).1
  rw [planRemove_of_lt hlt]
  rw [filled_eq_settle hn hs he, tags_withTags] at hk ⊢
  have hplace := eq_pastLast_of_getElem?_settle hnew hk
  refine ⟨hplace, ?_⟩
  rw [hplace, Element.settle, eraseIdx_settle]
  rfl

theorem exists_element_of_insertion {i : Insertion} (hi : i ∈ d.batchInsertions p) :
    ∃ e ∈ d.missing p, i.tag = e.tag false := by
  have hmem : i.tag ∈ (batchOf (d.missing p)).map (·.tag false) := by
    rw [← map_tag_insertionsFor _ d.tags]
    exact List.mem_map_of_mem hi
  obtain ⟨e, he, heq⟩ := List.mem_map.1 hmem
  exact ⟨e, (batchOf_perm _).mem_iff.1 he, heq.symm⟩

/-- Wherever a tag that the batch has placed is taken out, the next batch places that tag alone,
at the same index, and the declaration is as it was. -/
theorem planAll_restores (d : Declaration) (b : Block) (p : Policy) (indent indent' : Text)
    (hk : d.kind ∈ DeclarationKind.known) (hd : d.doc = some b) (hn : d.Distinct)
    (hs : d.Spelled p) :
    ∃ plan d', d.planAll p indent = .ok (plan, d') ∧ ∀ i ∈ plan.insertions, i.tag ∈ d'.tags ∧
      ∀ k : Nat, d'.tags[k]? = some i.tag → ∃ rest,
        d'.planRemove k = .ok (.removed (d'.tags.eraseIdx k), rest) ∧
        rest.planAll p indent' = .ok (.inserted .addAll [⟨k, i.tag⟩] d'.tags, d') := by
  refine ⟨_, _, planAll_eq hk hd indent, fun i hi => ?_⟩
  have hbatch : i ∈ d.batchInsertions p := insertions_batchPlan ▸ hi
  obtain ⟨e, he, htag⟩ := exists_element_of_insertion hbatch
  rw [htag]
  refine ⟨?_, fun k hget => ⟨d.filledBut p e, ?_, ?_⟩⟩
  · exact mem_settleAll.2 (.inl ⟨e, (batchOf_perm _).mem_iff.2 he, rfl⟩)
  · exact (planRemove_filled hn hs he hget).2
  · rw [(planRemove_filled hn hs he hget).1]
    exact planAll_filledBut hk hd hn hs he indent'

/-- The second type parameter stands between old tags, and tags of other roles come after it. -/
theorem planAll_scattered_restores : ∃ plan d' rest, scattered.planAll {} [] = .ok (plan, d') ∧
    plan.insertions.length = 4 ∧
    d'.planRemove 4 = .ok (.removed (d'.tags.eraseIdx 4), rest) ∧
    rest.planAll {} [] = .ok (.inserted .addAll
      [⟨4, { kind := .param, fragments := [.text "<V>", .text []] }⟩] d'.tags, d') := by
  obtain ⟨plan, d', hplan, hback⟩ := planAll_restores scattered _ {} [] [] (by decide) rfl
    (by decide) (by decide)
  have hin : ⟨4, { kind := .param, fragments := [.text "<V>", .text []] }⟩ ∈ plan.insertions ∧
      d'.tags[4]? = some { kind := .param, fragments := [.text "<V>", .text []] } := by
    cases hplan
    decide
  obtain ⟨rest, hremove, hagain⟩ := (hback _ hin.1).2 4 hin.2
  exact ⟨plan, d', rest, hplan, by cases hplan; rfl, hremove, hagain⟩

end DocComment.Declaration

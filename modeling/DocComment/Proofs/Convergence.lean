import DocComment.Proofs.Batch

/-! The batch converges. It never makes an element lack a tag, and where the names are legible
nothing is left for a second batch. -/

namespace DocComment.Declaration

variable {d : Declaration} {p : Policy} {e : Element} {b : Block} {ts : List Tag}

theorem missing_sublist (hs : d.tags ⊆ ts) :
    ((d.withTags ts).missing p).Sublist (d.missing p) :=
  undocumented_sublist (List.map_subset _ hs) (d.taggable p)

theorem missing_filled_sublist : ((d.filled p).missing p).Sublist (d.missing p) :=
  missing_sublist Element.sublist_settleAll.subset

/-- Each element had a tag before, or lacked one and got it. -/
theorem missing_filled (hl : d.Legible p) : (d.filled p).missing p = [] := by
  rw [List.eq_nil_iff_forall_not_mem]
  intro e he
  obtain ⟨htakes, hnone⟩ := mem_missing.1 he
  have hm : e ∈ d.missing p := missing_filled_sublist.subset he
  have ht : e.tag false ∈ (d.filled p).tags :=
    Element.mem_settleAll.2 (.inl ⟨e, (batchOf_perm _).mem_iff.2 hm, rfl⟩)
  have hd : (d.filled p).documents e = true :=
    List.any_eq_true.2 ⟨_, ht, hl.isDocumentedBy_tag (mem_missing.1 hm).1⟩
  rw [hnone] at hd
  cases hd

/-- What a batch leaves undocumented was so before. Where parameters have no dots, type parameters
have names and exceptions are spelled by their simple names, it leaves nothing, and another batch
has nothing to do; names may repeat. -/
theorem insertAll_converges (d : Declaration) (b : Block) (p : Policy)
    (hk : d.kind ∈ DeclarationKind.known) (hd : d.doc = some b) :
    ∃ is d', d.insertAll p = .ok (is, d') ∧
      (∃ before after, d.missingElements p = .ok before ∧ d'.missingElements p = .ok after ∧
        after.Sublist before) ∧
      (d.Legible p → d'.missingElements p = .ok [] ∧ d'.insertAll p = .ok ([], d') ∧
        ∀ indent, ∃ plan, d'.planAll p indent = .ok (plan, d') ∧
          plan.warnings ≠ [] ∧ plan.insertions = []) := by
  have hk' : (d.filled p).kind ∈ DeclarationKind.known := hk
  have hd' : (d.filled p).doc = some { b with tags := (d.filled p).tags } := doc_withTags hd
  refine ⟨d.batchInsertions p, d.filled p, insertAll_eq hk hd, ?_, fun hl => ?_⟩
  · exact ⟨_, _, missingElements_of_known hk, missingElements_of_known hk', missing_filled_sublist⟩
  · have hm := missing_filled hl
    have hsame := filled_of_missing_eq_nil hd' hm
    refine ⟨by rw [missingElements_of_known hk', hm], ?_, fun indent => ?_⟩
    · rw [insertAll_eq hk' hd', hsame, batchInsertions, hm]
      rfl
    · rw [planAll_eq hk' hd', hsame, batchPlan_of_nil hm]
      exact ⟨_, rfl, List.cons_ne_nil _ _, rfl⟩

/-- Repeated names, an unresolved exception, and one that is spelled in full. -/
def repeated : Declaration :=
  { kind := .method, parameters := [⟨"a", []⟩, ⟨"a", []⟩, ⟨"b", []⟩], typeParameters := ["T", "T"]
    returnType := some ("int" : String)
    thrown := [⟨"E", none⟩, ⟨"io.F", some ("io.F" : String)⟩, ⟨[], some ("io.F" : String)⟩]
    doc := some { tags := [{ kind := .returns }, { kind := .param, fragments := [.identifier "b"] }] } }

theorem insertAll_repeated_converges : ∃ is d',
    repeated.insertAll { qualifiedExceptionNames := true } = .ok (is, d') ∧ is.length = 6 ∧
      d'.missingElements { qualifiedExceptionNames := true } = .ok [] := by
  obtain ⟨is, d', hi, -, h⟩ := insertAll_converges repeated _ { qualifiedExceptionNames := true }
    (by decide) rfl
  exact ⟨is, d', hi, by cases hi; rfl, (h ⟨by decide, by decide, by decide⟩).1⟩

end DocComment.Declaration

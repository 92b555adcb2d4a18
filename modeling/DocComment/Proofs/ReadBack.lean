import DocComment.Proofs.Session

/-! The element at a place and the tag that is made for it. Every place that the declaration counts
has its element, and no other place has one. The argument read from its tag is the element's own
exactly where the name can be read back (`argument_tag_elementAt`). -/

namespace DocComment.Declaration

variable {d : Declaration} {p : Policy} {e : Element} {r : Role} {i : Int}

theorem At.toNat_lt_count (he : d.At p r i e) (hr : r ≠ .returned) : i.toNat < d.count r := by
  cases he with
  | returned => exact absurd rfl hr
  | typeParameter hi => exact (List.getElem?_eq_some_iff.1 hi).1
  | valueParameter hi => simpa [count, parameterNames] using (List.getElem?_eq_some_iff.1 hi).1
  | thrownException hi => exact (List.getElem?_eq_some_iff.1 hi).1

theorem nonneg_of_elementAt (he : d.elementAt r i p = .ok e) (hr : r ≠ .returned) : 0 ≤ i := by
  by_contra hneg
  have hlt : i < 0 := by omega
  unfold elementAt at he
  dsimp only at he
  split at he
  next => exact hr rfl
  next =>
    rw [if_pos hlt] at he
    cases he
  next => cases he

theorem exists_elementAt_iff :
    (∃ e, d.elementAt r i p = .ok e) ↔ r = .returned ∨ 0 ≤ i ∧ i < d.count r := by
  constructor
  · rintro ⟨e, he⟩
    by_cases hr : r = .returned
    · exact .inl hr
    · have h0 := nonneg_of_elementAt he hr
      have hlt := (at_of_elementAt he).toNat_lt_count hr
      exact .inr (by omega)
  · rintro (rfl | ⟨h0, hi⟩)
    · exact ⟨_, rfl⟩
    · obtain ⟨e, he, -⟩ := exists_elementAt (p := p) h0 hi
      exact ⟨e, he⟩

/-- The places of a declaration have their elements. The tag for an element, in a new doc comment or
in an old one, documents that element exactly if its name can be read back from a tag; a return tag
always does, and neither it nor its element has an argument. -/
theorem argument_tag_elementAt (d : Declaration) (p : Policy) (r : Role) (i : Int) :
    ((∃ e, d.elementAt r i p = .ok e) ↔ r = .returned ∨ 0 ≤ i ∧ i < d.count r) ∧
    ∀ e fresh, d.elementAt r i p = .ok e →
      ((e.tag fresh).argument = e.argument ↔ d.ReadsBack p r i) ∧
      (e.isDocumentedBy (e.tag fresh) = true ↔ d.ReadsBack p r i) ∧
      (r = .returned → (e.tag fresh).argument = none ∧ e.argument = none) := by
  refine ⟨exists_elementAt_iff, fun e fresh he => ?_⟩
  have hiff : (e.tag fresh).argument = e.argument ↔ d.ReadsBack p r i :=
    (at_of_elementAt he).argument_tag_iff
  refine ⟨hiff, Element.isDocumentedBy_tag_iff.trans hiff, ?_⟩
  rintro rfl
  cases he
  exact ⟨rfl, rfl⟩

def misnamed : Declaration :=
  { kind := .method
    parameters := [⟨"a.b", []⟩]
    thrown := [⟨"Failure", some ("java.io.IOException" : String)⟩,
      ⟨[], some ("java.io.IOException" : String)⟩] }

theorem argument_tag_misnamed :
    (∃ e, misnamed.elementAt .valueParameter 0 {} = .ok e ∧ (e.tag true).argument ≠ e.argument) ∧
    (∃ e, misnamed.elementAt .thrownException 0 { qualifiedExceptionNames := true } = .ok e ∧
      (e.tag true).argument ≠ e.argument) ∧
    ∃ e, misnamed.elementAt .thrownException 1 { qualifiedExceptionNames := true } = .ok e ∧
      (e.tag true).argument = e.argument := by
  have hread : ∀ p r (i : Int), 0 ≤ i → i < misnamed.count r → ∃ e,
      misnamed.elementAt r i p = .ok e ∧
      ((e.tag true).argument = e.argument ↔ misnamed.ReadsBack p r i) := by
    intro p r i h0 hi
    obtain ⟨hplace, hread⟩ := argument_tag_elementAt misnamed p r i
    obtain ⟨e, he⟩ := hplace.2 (.inr ⟨h0, hi⟩)
    exact ⟨e, he, (hread e true he).1⟩
  refine ⟨?_, ?_, ?_⟩
  · obtain ⟨e, he, hiff⟩ := hread {} .valueParameter 0 (by decide) (by decide)
    exact ⟨e, he, fun h => absurd (hiff.1 h) (by unfold ReadsBack; decide)⟩
  · obtain ⟨e, he, hiff⟩ := hread { qualifiedExceptionNames := true } .thrownException 0 (by decide)
      (by decide)
    exact ⟨e, he, fun h => absurd (hiff.1 h) (by unfold ReadsBack; decide)⟩
  · obtain ⟨e, he, hiff⟩ := hread { qualifiedExceptionNames := true } .thrownException 1 (by decide)
      (by decide)
    exact ⟨e, he, hiff.2 (by unfold ReadsBack; decide)⟩

end DocComment.Declaration

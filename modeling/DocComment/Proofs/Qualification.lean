import DocComment.Proofs.Alike

/-! Exceptions with their qualified names. Under policies that spell exceptions differently the
batch makes twins: insertions at the same indices whose tags differ, if at all, in the identifier of
an exception. Either spelling has the same last segment, so the tags stay alike from step to step
(`Element.twin_insertionsFor`). -/

namespace DocComment

/-- Tags that are the same but for the spelling of an exception. -/
structure Tag.Twin (t u : Tag) : Prop where
  kind : t.kind = u.kind
  argument : t.argument = u.argument
  spelling : t = u ∨ t.kind = .throws ∧ ∃ n m rest, t.fragments = .identifier n :: rest ∧
    u = { t with fragments := .identifier m :: rest }

structure Insertion.Twin (i j : Insertion) : Prop where
  index : i.index = j.index
  tag : i.tag.Twin j.tag

structure Element.Twin (e f : Element) : Prop where
  same : f = { e with typeText := f.typeText }
  tag : (e.tag false).Twin (f.tag false)

theorem forall₂_insertIdx {α : Type} {R : α → α → Prop} {l l' : List α} {a b : α}
    (h : List.Forall₂ R l l') (hab : R a b) (n : Nat) :
    List.Forall₂ R (l.insertIdx n a) (l'.insertIdx n b) := by
  induction n generalizing l l' with
  | zero => exact .cons hab h
  | succ n ih =>
    cases h with
    | nil => exact .nil
    | cons hcd h => exact .cons hcd (ih h)

namespace Insertion

variable {R : Tag → Tag → Prop} {i j : Insertion} {is js : List Insertion} {ts us : List Tag}

theorem forall₂_apply (hindex : i.index = j.index) (htag : R i.tag j.tag)
    (h : List.Forall₂ R ts us) : List.Forall₂ R (i.apply ts) (j.apply us) := by
  rw [apply, apply, hindex]
  exact forall₂_insertIdx h htag _

theorem forall₂_applyAll (his : List.Forall₂ (fun i j => i.index = j.index ∧ R i.tag j.tag) is js)
    (h : List.Forall₂ R ts us) : List.Forall₂ R (applyAll is ts) (applyAll js us) := by
  induction his generalizing ts us with
  | nil => exact h
  | cons hij _ ih => exact ih (forall₂_apply hij.1 hij.2 h)

end Insertion

theorem Tag.Twin.refl (t : Tag) : t.Twin t := ⟨rfl, rfl, .inl rfl⟩

theorem Tag.Twin.key {t u : Tag} (h : t.Twin u) : t.key = u.key := by
  rw [Tag.key, Tag.key, h.kind, h.argument]

namespace Element

variable {e f : Element} {es fs : List Element} {ts us : List Tag}

theorem Twin.refl (e : Element) : e.Twin e := ⟨rfl, .refl _⟩

theorem Twin.role (h : e.Twin f) : e.role = f.role := by rw [h.same]

theorem Twin.isDocumentedBy (h : e.Twin f) (t : Tag) : e.isDocumentedBy t = f.isDocumentedBy t := by
  rw [h.same]
  rfl

/-- Any two spellings have the same last segment, or the simple name stands in for an empty one. -/
theorem twin_thrownException {xs : List ThrownException} {x : ThrownException} (q q' : Bool)
    (i : Nat) (hx : x.typeName = [] ∨ x.typeName.simpleName = x.simpleName) :
    (thrownException xs q i x).Twin (thrownException xs q' i x) := by
  refine ⟨rfl, rfl, ?_, .inr ⟨rfl, _, _, _, rfl, rfl⟩⟩
  rw [argument_tag_thrownException, argument_tag_thrownException,
    x.simpleName_spelled_iff.2 fun _ => hx, x.simpleName_spelled_iff.2 fun _ => hx]

theorem Twin.insertion (h : e.Twin f) (halike : Alike ts us) :
    (e.insertion ts false).Twin (f.insertion us false) := by
  refine ⟨?_, h.tag⟩
  have hleading : e.leading = f.leading := by rw [h.same]
  simp only [Element.insertion, h.tag.kind, hleading]
  exact halike.insertionIndex_eq _ _

theorem twin_batchOf (h : List.Forall₂ Twin es fs) :
    List.Forall₂ Twin (batchOf es) (batchOf fs) := by
  have hroles : List.Forall₂ Eq Role.batchOrder Role.batchOrder :=
    List.forall₂_same.2 fun _ _ => rfl
  refine List.rel_flatMap hroles fun r r' hr => List.rel_reverse (List.rel_filter ?_ h)
  intro e f hef
  simp only [hr, hef.role]

/-- Twins settle at the same places among alike tags, and leave the tags alike. -/
theorem twin_insertionsFor (h : List.Forall₂ Twin es fs) (halike : Alike ts us) :
    List.Forall₂ Insertion.Twin (insertionsFor ts es) (insertionsFor us fs) := by
  induction h generalizing ts us with
  | nil => exact .nil
  | cons hef _ ih =>
    have hins := hef.insertion halike
    refine .cons hins (ih (alike_iff_forall₂.2 ?_))
    exact Insertion.forall₂_apply hins.index hins.tag.key (alike_iff_forall₂.1 halike)

end Element

namespace Declaration

open Element

variable {d : Declaration} {b : Block} {p q : Policy}

section
variable (hs : ∀ x ∈ d.thrown, x.isResolved = true →
  x.typeName = [] ∨ x.typeName.simpleName = x.simpleName)
include hs

theorem twin_exceptionElements :
    List.Forall₂ Twin (d.exceptionElements p) (d.exceptionElements q) := by
  have hself : List.Forall₂ (fun y z => y = z ∧ y.1 ∈ d.thrown) d.thrown.zipIdx d.thrown.zipIdx :=
    List.forall₂_same.2 fun y hy => ⟨rfl, List.fst_mem_of_mem_zipIdx hy⟩
  refine List.rel_filterMap ?_ hself
  rintro ⟨x, i⟩ _ ⟨rfl, hx⟩
  dsimp only
  split
  next hr => exact .some (twin_thrownException _ _ i (hs x hx hr))
  next => exact .none

variable (hpq : p.methodTypeParameters = q.methodTypeParameters)
include hpq

theorem twin_taggable : List.Forall₂ Twin (d.taggable p) (d.taggable q) := by
  have hgenerics : d.generics p = d.generics q := by rw [generics, generics, hpq]
  have hself : ∀ es : List Element, List.Forall₂ Twin es es := fun es =>
    List.forall₂_same.2 fun e _ => .refl e
  unfold taggable
  rw [typeParameterElements, typeParameterElements, valueParameterElements, valueParameterElements,
    hgenerics]
  split
  · exact List.rel_append (hself _) (twin_exceptionElements hs)
  · exact hself _
  · exact .nil

theorem twin_missing : List.Forall₂ Twin (d.missing p) (d.missing q) := by
  refine List.rel_filter ?_ (twin_taggable hs hpq)
  intro e f hef
  simp only [documents, funext hef.isDocumentedBy]

end

/-- The batch under two policies that may differ in the spelling of exceptions makes twins, step by
step. So it leaves tags that are equal or twins, place by place; those that are not equal are the
tags of one step. -/
theorem insertAll_twin (d : Declaration) (b : Block) (p q : Policy)
    (hk : d.kind ∈ DeclarationKind.known) (hd : d.doc = some b)
    (hpq : p.methodTypeParameters = q.methodTypeParameters)
    (hs : ∀ x ∈ d.thrown, x.isResolved = true →
      x.typeName = [] ∨ x.typeName.simpleName = x.simpleName) :
    ∃ is js l l', d.insertAll p = .ok (is, l) ∧ d.insertAll q = .ok (js, l') ∧
      List.Forall₂ Insertion.Twin is js ∧
      List.Forall₂ (fun t u => t = u ∨ t.Twin u ∧ ∃ i j, (i, j) ∈ is.zip js ∧ i.tag = t ∧ j.tag = u)
        l.tags l'.tags := by
  have htwin : List.Forall₂ Insertion.Twin (d.batchInsertions p) (d.batchInsertions q) :=
    twin_insertionsFor (twin_batchOf (twin_missing hs hpq)) rfl
  refine ⟨_, _, _, _, insertAll_eq hk hd, insertAll_eq hk hd, htwin, ?_⟩
  rw [tags_filled, tags_filled]
  obtain ⟨hlength, hzip⟩ := List.forall₂_iff_zip.1 htwin
  refine Insertion.forall₂_applyAll (List.forall₂_iff_zip.2 ⟨hlength, fun {i j} hij => ?_⟩)
    (List.forall₂_same.2 fun t _ => .inl rfl)
  exact ⟨(hzip hij).index, .inr ⟨(hzip hij).tag, i, j, hij, rfl, rfl⟩⟩

def rethrown : Declaration :=
  { kind := .method
    parameters := [⟨"a", []⟩]
    thrown := [⟨"io.Failure", some []⟩, ⟨"Lost", none⟩, ⟨"Failure", some ("io.Failure" : String)⟩,
      ⟨"io.End", some ("io.End" : String)⟩]
    doc := some { tags := [
      { kind := .see },
      { kind := .exception, fragments := [.identifier "Failed"] }] } }

theorem insertAll_rethrown_twin : ∃ is js l l', rethrown.insertAll {} = .ok (is, l) ∧
    rethrown.insertAll { qualifiedExceptionNames := true } = .ok (js, l') ∧
    List.Forall₂ Insertion.Twin is js ∧ is.length = 4 ∧ is ≠ js ∧ l.tags ≠ l'.tags := by
  obtain ⟨is, js, l, l', hi, hj, htwin, -⟩ := insertAll_twin rethrown _ {}
    { qualifiedExceptionNames := true } (by decide) rfl rfl (by decide)
  refine ⟨is, js, l, l', hi, hj, htwin, ?_⟩
  cases hi
  cases hj
  decide

end Declaration

end DocComment

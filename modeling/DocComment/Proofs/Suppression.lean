import DocComment.Proofs.Crossing
import DocComment.Proofs.Merge

/-! A policy that leaves out the type parameters of methods. Where none of them has a tag from the
start, the batch leaves the tags that it leaves without that policy, less those of type parameters
(`insertAll_suppresses`): the tags of the other elements have their gaps either way. -/

namespace DocComment

/-- No type parameters of methods take a tag. -/
def Policy.withoutGenerics (p : Policy) : Policy := { p with methodTypeParameters := false }

/-- A param tag of one of the declared type parameters. -/
def Declaration.isGenericTag (d : Declaration) (t : Tag) : Bool :=
  t.kind = .param && d.typeParameters.any fun n => t.argument = some n.angled

namespace Declaration

open Element

variable {d : Declaration} {p : Policy} {e : Element} {b : Block} {ts : List Tag}

theorem isGenericTag_iff {t : Tag} : d.isGenericTag t = true ↔
    t.kind = .param ∧ ∃ n ∈ d.typeParameters, t.argument = some n.angled := by
  simp [isGenericTag]

theorem generics_withoutGenerics (hk : d.kind = .method) : d.generics p.withoutGenerics = [] :=
  if_pos ⟨hk, rfl⟩

theorem isGenericTag_tag (hn : d.Distinct) (hs : d.Spelled p) (he : d.Takes p e) :
    d.isGenericTag (e.tag false) = decide (e.role = .typeParameter) := by
  rw [Bool.eq_iff_iff, isGenericTag_iff, (hn.legible hs).argument_tag he, decide_eq_true_iff]
  cases he with
  | typeParameter hk hi =>
    exact ⟨fun _ => rfl, fun _ => ⟨rfl, _, mem_generics (List.mem_of_getElem? hi), rfl⟩⟩
  | @valueParameter i n hk hi =>
    refine ⟨?_, fun h => by cases h⟩
    rintro ⟨-, g, -, heq⟩
    obtain rfl : n = g.angled := Option.some.inj heq
    exact absurd List.mem_cons_self (hn.parameters_plain _ (List.mem_of_getElem? hi)).2
  | returned hk hr =>
    constructor
    · rintro ⟨hkind, -⟩
      cases hkind
    · intro hrole
      cases hrole
  | thrownException hk hi hx =>
    constructor
    · rintro ⟨hkind, -⟩
      cases hkind
    · intro hrole
      cases hrole

def ungeneric (d : Declaration) (p : Policy) : List Element :=
  d.valueParameterElements p ++ d.returnElements ++ d.exceptionElements p

theorem taggable_of_method (hk : d.kind = .method) :
    d.taggable p = d.typeParameterElements p ++ d.ungeneric p := by
  simp only [taggable, hk, ungeneric, List.append_assoc]

theorem role_ne_of_mem_ungeneric (he : e ∈ d.ungeneric p) : e.role ≠ .typeParameter := by
  simp only [ungeneric, List.mem_append, mem_valueParameterElements, mem_returnElements,
    mem_exceptionElements] at he
  obtain (⟨i, n, -, rfl⟩ | ⟨-, rfl⟩) | ⟨i, x, -, -, rfl⟩ := he <;> exact fun h => by cases h

theorem missing_withoutGenerics (hk : d.kind = .method) : d.missing p.withoutGenerics =
    (d.ungeneric p.withoutGenerics).filter fun e => !d.documents e := by
  rw [missing, taggable_of_method hk, typeParameterElements, generics_withoutGenerics hk]
  rfl

/-- Less the elements whose tags are those of type parameters. -/
theorem filter_missing_withGenerics (hk : d.kind = .method) (hn : d.Distinct) (hs : d.Spelled p) :
    ((d.missing p.withGenerics).filter fun e => !d.isGenericTag (e.tag false)) =
      (d.ungeneric p.withGenerics).filter fun e => !d.documents e := by
  have hs' : d.Spelled p.withGenerics := hs
  have hrole : ∀ e ∈ d.missing p.withGenerics,
      (!d.isGenericTag (e.tag false)) = decide (e.role ≠ .typeParameter) := by
    intro e he
    rw [isGenericTag_tag hn hs' (mem_missing.1 he).1, decide_not]
  have hgeneric : (d.typeParameterElements p.withGenerics).filter (·.role ≠ .typeParameter) = [] := by
    rw [List.filter_eq_nil_iff]
    intro e he
    obtain ⟨i, n, -, rfl⟩ := mem_typeParameterElements.1 he
    simp [Element.typeParameter]
  have hother : (d.ungeneric p.withGenerics).filter (·.role ≠ .typeParameter) =
      d.ungeneric p.withGenerics :=
    List.filter_eq_self.2 fun e he => by simpa using role_ne_of_mem_ungeneric he
  rw [List.filter_congr hrole, missing, List.filter_comm, taggable_of_method hk,
    List.filter_append, hgeneric, hother, List.nil_append]

theorem gap_valueParameter {names : List Text} {i : Nat} {n : Text}
    (hfree : ∀ g ∈ d.typeParameters, ¬ HasParam ts g.angled) :
    (Element.valueParameter names d.typeParameters i n).gap ts =
      (Element.valueParameter names [] i n).gap ts := by
  rw [gap_eq_pastLast, gap_eq_pastLast]
  apply pastLast_congr
  intro t ht
  rw [Bool.eq_iff_iff, @follows_valueParameter_iff _ d.typeParameters]
  refine or_iff_left ?_
  rintro ⟨g, hg, hk, ha⟩
  exact hfree g hg ⟨t, ht, hk, ha⟩

theorem map_gap_ungeneric (hk : d.kind = .method)
    (hfree : ∀ g ∈ d.typeParameters, ¬ HasParam ts g.angled) :
    ((d.ungeneric p.withGenerics).filter fun e => !d.documents e).map
        (fun e => (e.gap ts, e.tag false)) =
      ((d.ungeneric p.withoutGenerics).filter fun e => !d.documents e).map
        fun e => (e.gap ts, e.tag false) := by
  have hvalue : ((d.valueParameterElements p.withGenerics).filter fun e => !d.documents e).map
        (fun e => (e.gap ts, e.tag false)) =
      ((d.valueParameterElements p.withoutGenerics).filter fun e => !d.documents e).map
        fun e => (e.gap ts, e.tag false) := by
    rw [valueParameterElements, valueParameterElements, generics_withGenerics,
      generics_withoutGenerics hk, List.mapIdx_eq_zipIdx_map, List.mapIdx_eq_zipIdx_map,
      List.filter_map, List.filter_map, List.map_map, List.map_map]
    -- the names that lead do not show in what documents a parameter, nor in its tag
    refine List.map_congr_left fun y _ => ?_
    exact Prod.ext (gap_valueParameter hfree) rfl
  rw [ungeneric, ungeneric, List.filter_append, List.filter_append, List.filter_append,
    List.filter_append, List.map_append, List.map_append, List.map_append, List.map_append, hvalue]
  rfl

/-- Where no type parameter of a method has a tag, a policy that leaves them out takes their tags
from what the batch leaves, and nothing else. -/
theorem insertAll_suppresses (d : Declaration) (b : Block) (p : Policy) (hk : d.kind = .method)
    (hd : d.doc = some b) (hn : d.Distinct) (hs : d.Spelled p)
    (hfree : ∀ n ∈ d.typeParameters, ¬ HasParam d.tags n.angled) :
    ∃ is is' all, d.insertAll p.withGenerics = .ok (is, all) ∧
      d.insertAll p.withoutGenerics =
        .ok (is', all.withTags (all.tags.filter fun t => !d.isGenericTag t)) := by
  have hknown : d.kind ∈ DeclarationKind.known := by rw [hk]; decide
  have hold : ∀ t ∈ d.tags, (!d.isGenericTag t) = true := by
    intro t ht
    rw [Bool.not_eq_true', Bool.eq_false_iff, Ne, isGenericTag_iff]
    rintro ⟨hkt, n, hmem, hat⟩
    exact hfree n hmem ⟨t, ht, hkt, hat⟩
  have hmerge : ∀ q : Policy, q.qualifiedExceptionNames = p.qualifiedExceptionNames →
      (d.filled q).tags = mergeByGap d.tags (d.missing q) := by
    intro q hq
    have hsq : d.Spelled q := fun h => hs (hq ▸ h)
    exact settleAll_eq_mergeByGap (pairwise_missing hn hsq)
  have htags : (d.filled p.withoutGenerics).tags =
      (d.filled p.withGenerics).tags.filter fun t => !d.isGenericTag t := by
    calc (d.filled p.withoutGenerics).tags
        = mergeByGap d.tags (d.missing p.withoutGenerics) := hmerge _ rfl
      _ = mergeByGap d.tags ((d.missing p.withGenerics).filter
            fun e => !d.isGenericTag (e.tag false)) := by
          rw [missing_withoutGenerics hk, filter_missing_withGenerics hk hn hs]
          exact mergeByGap_congr (map_gap_ungeneric hk hfree).symm
      _ = (mergeByGap d.tags (d.missing p.withGenerics)).filter fun t => !d.isGenericTag t :=
          (filter_mergeByGap hold).symm
      _ = (d.filled p.withGenerics).tags.filter fun t => !d.isGenericTag t := by
          rw [hmerge p.withGenerics rfl]
  refine ⟨_, d.batchInsertions p.withoutGenerics, _, insertAll_eq hknown hd, ?_⟩
  rw [insertAll_eq hknown hd, ← htags]
  rfl

/-- Tags in no order, and among them none of a type parameter. -/
def scatteredPlain : Declaration :=
  { scattered with doc := some { tags := [
    { kind := .see },
    { kind := .param, fragments := [.identifier "stale"] },
    { kind := .author },
    { kind := .param, fragments := [.identifier "fallback"] }] } }

theorem insertAll_scatteredPlain_suppresses : ∃ is is' all,
    scatteredPlain.insertAll {} = .ok (is, all) ∧
    scatteredPlain.insertAll { methodTypeParameters := false } =
      .ok (is', all.withTags (all.tags.filter fun t => !scatteredPlain.isGenericTag t)) ∧
    is.map Insertion.index = [3, 3, 5, 7, 8] ∧ is'.map Insertion.index = [3, 5, 6] := by
  obtain ⟨is, is', all, hwith, hwithout⟩ := insertAll_suppresses scatteredPlain _ {} rfl rfl
    (by decide) (by decide) (by unfold HasParam; decide)
  have his : scatteredPlain.batchInsertions {} = is := (Prod.mk.inj (Except.ok.inj hwith)).1
  have his' : scatteredPlain.batchInsertions { methodTypeParameters := false } = is' :=
    (Prod.mk.inj (Except.ok.inj hwithout)).1
  refine ⟨is, is', all, hwith, hwithout, ?_, ?_⟩
  · rw [← his]
    decide
  · rw [← his']
    decide

end Declaration

end DocComment

import DocComment.Proofs.Precedence
import DocComment.Proofs.Session

/-! Doc comments in order: the tags go up in rank, and those of one kind go through the declaration.
A tag that settles keeps the order where its leading names are all the names before its own
(`pairwise_settle_tag`). -/

namespace DocComment

/-- The place of a tag of kind `k` among the names that such tags document. -/
def Tag.placeIn (k : TagKind) (names : List Text) (t : Tag) : Option Nat :=
  if t.kind.canonical = k then t.argument.bind fun a => names.idxOf? a else none

def Tag.InPlace (k : TagKind) (names : List Text) (s t : Tag) : Prop :=
  ∀ i, s.placeIn k names = some i → ∀ j, t.placeIn k names = some j → i ≤ j

namespace Declaration

/-- The arguments of param tags, type parameters first. -/
def parameterKeys (d : Declaration) : List Text :=
  d.typeParameters.map Text.angled ++ d.parameterNames

/-- The tags are in the order of their ranks, and the tags of parameters and of exceptions in the
order of the declaration; what tags of other names do is left open. -/
structure Ordered (d : Declaration) : Prop where
  ranks : (d.tags.map (·.kind.rank)).Pairwise (· ≤ ·)
  parameters : (d.tags.filterMap (Tag.placeIn .param d.parameterKeys)).Pairwise (· ≤ ·)
  exceptions : (d.tags.filterMap (Tag.placeIn .throws d.exceptionNames)).Pairwise (· ≤ ·)

instance (d : Declaration) : Decidable d.Ordered :=
  decidable_of_iff ((d.tags.map (·.kind.rank)).Pairwise (· ≤ ·) ∧
      (d.tags.filterMap (Tag.placeIn .param d.parameterKeys)).Pairwise (· ≤ ·) ∧
      (d.tags.filterMap (Tag.placeIn .throws d.exceptionNames)).Pairwise (· ≤ ·))
    ⟨fun ⟨h1, h2, h3⟩ => ⟨h1, h2, h3⟩, fun ⟨h1, h2, h3⟩ => ⟨h1, h2, h3⟩⟩

/-- `s` may stand before `t`. -/
structure Allows (d : Declaration) (s t : Tag) : Prop where
  rank : s.kind.rank ≤ t.kind.rank
  parameter : s.InPlace .param d.parameterKeys t
  exception : s.InPlace .throws d.exceptionNames t

variable {d : Declaration} {p : Policy} {e : Element} {ts : List Tag} {fresh : Bool}

theorem ordered_iff : d.Ordered ↔ d.tags.Pairwise d.Allows := by
  constructor
  · intro h
    have h1 := List.pairwise_map.1 h.ranks
    have h2 := List.pairwise_filterMap.1 h.parameters
    have h3 := List.pairwise_filterMap.1 h.exceptions
    exact ((h1.and h2).and h3).imp fun ⟨⟨h1, h2⟩, h3⟩ => ⟨h1, h2, h3⟩
  · intro h
    exact ⟨List.pairwise_map.2 (h.imp Allows.rank),
      List.pairwise_filterMap.2 (h.imp Allows.parameter),
      List.pairwise_filterMap.2 (h.imp Allows.exception)⟩

theorem ordered_withTags : (d.withTags ts).Ordered ↔ ts.Pairwise d.Allows :=
  ordered_iff.trans ⟨List.Pairwise.imp fun ⟨h1, h2, h3⟩ => ⟨h1, h2, h3⟩,
    List.Pairwise.imp fun ⟨h1, h2, h3⟩ => ⟨h1, h2, h3⟩⟩

end Declaration

section idxOf
variable {names : List Text} {a : Text} {i n : Nat}

theorem idxOf?_of_nodup (hn : names.Nodup) (hi : names[i]? = some a) :
    names.idxOf? a = some i := by
  obtain ⟨hlt, rfl⟩ := List.getElem?_eq_some_iff.1 hi
  refine List.idxOf?_eq_some_iff.2 ⟨hlt, rfl, fun j hj heq => ?_⟩
  have := (List.getElem_inj hn).1 heq
  omega

theorem mem_take_iff_idxOf? (hn : names.Nodup) :
    a ∈ names.take n ↔ ∃ i < n, names.idxOf? a = some i := by
  constructor
  · intro hm
    obtain ⟨i, hi, rfl⟩ := List.mem_take_iff_getElem.1 hm
    exact ⟨i, by omega, idxOf?_of_nodup hn (List.getElem?_eq_getElem (by omega))⟩
  · rintro ⟨i, hin, hi⟩
    obtain ⟨hlt, hget, -⟩ := List.idxOf?_eq_some_iff.1 hi
    exact List.mem_take_iff_getElem.2 ⟨i, by omega, hget⟩

end idxOf

namespace Element

/-- The leading names of an element with a place among `names` are the names before its own. -/
def LeadsIn (e : Element) (k : TagKind) (names : List Text) (fresh : Bool) : Prop :=
  ∀ n, (e.tag fresh).placeIn k names = some n → ∃ leading, e.leading = some leading ∧
    ∀ a, a ∈ leading ↔ ∃ i < n, names.idxOf? a = some i

variable {e : Element} {s t : Tag} {k : TagKind} {names : List Text} {fresh : Bool}

theorem placeIn_eq_some {i : Nat} : t.placeIn k names = some i ↔
    t.kind.canonical = k ∧ ∃ a, t.argument = some a ∧ names.idxOf? a = some i := by
  simp [Tag.placeIn, Option.bind_eq_some_iff]

theorem LeadsIn.exists_lt (h : e.LeadsIn k names fresh) (hf : e.follows t = true)
    (hkt : t.kind.rank = e.role.tagKind.rank) {n : Nat}
    (hn : (e.tag fresh).placeIn k names = some n) : ∃ i < n, t.placeIn k names = some i := by
  obtain ⟨hk, -⟩ := placeIn_eq_some.1 hn
  obtain ⟨leading, hl, hlead⟩ := h n hn
  rcases follows_iff.1 hf with hlt | ⟨hsame, ls, c, hls, hc, hm⟩
  · omega
  · cases hl.symm.trans hls
    obtain ⟨i, hin, hi⟩ := (hlead c).1 hm
    exact ⟨i, hin, placeIn_eq_some.2 ⟨hsame.symm.trans hk, c, hc, hi⟩⟩

theorem rank_of_placeIn {i n : Nat} (hi : t.placeIn k names = some i)
    (hn : (e.tag fresh).placeIn k names = some n) : t.kind.rank = e.role.tagKind.rank :=
  TagKind.rank_inj.2 ((placeIn_eq_some.1 hi).1.trans (placeIn_eq_some.1 hn).1.symm)

theorem LeadsIn.inPlace_of_follows (h : e.LeadsIn k names fresh) (hf : e.follows t = true) :
    t.InPlace k names (e.tag fresh) := by
  intro i hi n hn
  obtain ⟨j, hlt, hj⟩ := h.exists_lt hf (rank_of_placeIn hi hn) hn
  cases hi.symm.trans hj
  exact Nat.le_of_lt hlt

theorem LeadsIn.inPlace_of_not_follows (h : e.LeadsIn k names fresh) (hf : e.follows t = false) :
    (e.tag fresh).InPlace k names t := by
  intro n hn i hi
  obtain ⟨hk, a, ha, hidx⟩ := placeIn_eq_some.1 hi
  obtain ⟨hk', -⟩ := placeIn_eq_some.1 hn
  obtain ⟨leading, hl, hlead⟩ := h n hn
  by_contra hlt
  have hm : a ∈ leading := (hlead a).2 ⟨i, by omega, hidx⟩
  have hfollows : e.follows t = true :=
    follows_iff.2 (.inr ⟨hk'.trans hk.symm, leading, a, hl, ha, hm⟩)
  rw [hf] at hfollows
  cases hfollows

/-- What may stand before a tag that the new one follows may stand before the new one. -/
theorem LeadsIn.inPlace_through (h : e.LeadsIn k names fresh) (hf : e.follows t = true)
    (hrank : s.kind.rank ≤ t.kind.rank) (hst : s.InPlace k names t) :
    s.InPlace k names (e.tag fresh) := by
  intro i hi n hn
  have hs := rank_of_placeIn hi hn
  have ht : t.kind.rank = e.role.tagKind.rank := by
    rcases follows_iff.1 hf with hlt | ⟨hsame, -⟩
    · omega
    · exact (TagKind.rank_inj.2 hsame).symm
  obtain ⟨j, hlt, hj⟩ := h.exists_lt hf ht hn
  have := hst i hi j hj
  omega

end Element

namespace Declaration

open Element

variable {d : Declaration} {p : Policy} {e : Element} {ts : List Tag} {fresh : Bool}

theorem Distinct.parameterKeys (hn : d.Distinct) : d.parameterKeys.Nodup := by
  have hg : (d.typeParameters.map Text.angled).Nodup :=
    List.Pairwise.map _ (fun a b hne heq => hne (Text.angled_inj.1 heq)) hn.generics_nodup
  refine List.nodup_append.2 ⟨hg, hn.parameters_nodup, ?_⟩
  rintro a ha b hb rfl
  exact Text.not_mem_map_angled (hn.parameters_plain a hb).2 ha

theorem idxOf?_generic (hn : d.Distinct) {i : Nat} {n : Text}
    (hi : d.typeParameters[i]? = some n) : d.parameterKeys.idxOf? n.angled = some i := by
  refine idxOf?_of_nodup hn.parameterKeys ?_
  rw [Declaration.parameterKeys, List.getElem?_append_left (by simpa using
    (List.getElem?_eq_some_iff.1 hi).1), List.getElem?_map, hi]
  rfl

theorem idxOf?_parameter (hn : d.Distinct) {i : Nat} {n : Text}
    (hi : d.parameterNames[i]? = some n) :
    d.parameterKeys.idxOf? n = some (d.typeParameters.length + i) := by
  refine idxOf?_of_nodup hn.parameterKeys ?_
  rw [Declaration.parameterKeys, List.getElem?_append_right (by simp), List.length_map,
    Nat.add_sub_cancel_left, hi]

theorem argument_of_placeIn (hn : d.Distinct) (hs : d.Spelled p) (he : d.Takes p.withGenerics e)
    {k : TagKind} {names : List Text} {n : Nat} (h : (e.tag fresh).placeIn k names = some n) :
    (e.tag fresh).kind.canonical = k ∧ ∃ a, e.argument = some a ∧ names.idxOf? a = some n := by
  have hl : d.Legible p.withGenerics := hn.legible hs
  rw [← hl.argument_tag he]
  exact placeIn_eq_some.1 h

theorem leadsIn_parameters (hn : d.Distinct) (hs : d.Spelled p)
    (he : d.Takes p.withGenerics e) : e.LeadsIn .param d.parameterKeys fresh := by
  intro n hplace
  obtain ⟨hk, a, ha, hidx⟩ := argument_of_placeIn hn hs he hplace
  cases he with
  | @typeParameter i m hkind hi =>
    rw [generics_withGenerics] at hi ⊢
    obtain rfl : m.angled = a := Option.some.inj ha
    obtain rfl : i = n := Option.some.inj ((idxOf?_generic hn hi).symm.trans hidx)
    refine ⟨_, rfl, fun c => ?_⟩
    rw [← mem_take_iff_idxOf? hn.parameterKeys, Declaration.parameterKeys,
      List.take_append_of_le_length, List.map_take]
    simpa using Nat.le_of_lt (List.getElem?_eq_some_iff.1 hi).1
  | @valueParameter i m hkind hi =>
    rw [generics_withGenerics]
    obtain rfl : m = a := Option.some.inj ha
    obtain rfl := Option.some.inj ((idxOf?_parameter hn hi).symm.trans hidx)
    refine ⟨_, rfl, fun c => ?_⟩
    rw [← mem_take_iff_idxOf? hn.parameterKeys, Declaration.parameterKeys,
      ← List.length_map (f := Text.angled), List.take_length_add_append, List.mem_append,
      List.mem_append, or_comm]
  | returned hkind hr => cases hk
  | thrownException hkind hi hx => cases hk

theorem leadsIn_exceptions (hn : d.Distinct) (hs : d.Spelled p)
    (he : d.Takes p.withGenerics e) : e.LeadsIn .throws d.exceptionNames fresh := by
  intro n hplace
  obtain ⟨hk, a, ha, hidx⟩ := argument_of_placeIn hn hs he hplace
  cases he with
  | typeParameter hkind hi => cases hk
  | valueParameter hkind hi => cases hk
  | returned hkind hr => cases hk
  | @thrownException i x hkind hi hx =>
    obtain rfl : x.simpleName = a := Option.some.inj ha
    have hat := idxOf?_of_nodup hn.exceptions_nodup (getElem?_exceptionNames hi)
    obtain rfl : i = n := Option.some.inj (hat.symm.trans hidx)
    refine ⟨_, rfl, fun c => ?_⟩
    rw [← mem_take_iff_idxOf? hn.exceptions_nodup, exceptionNames, List.map_take]

/-- A tag settles in order, for an element that minds all type parameters. -/
theorem pairwise_settle_tag (hn : d.Distinct) (hs : d.Spelled p) (he : d.Takes p.withGenerics e)
    (h : ts.Pairwise d.Allows) :
    (DocComment.settle e.follows (e.tag fresh) ts).Pairwise d.Allows := by
  have hp : e.LeadsIn .param d.parameterKeys fresh := leadsIn_parameters hn hs he
  have hx : e.LeadsIn .throws d.exceptionNames fresh := leadsIn_exceptions hn hs he
  refine pairwise_settle h ?_ ?_ ?_
  · intro t _ ht
    exact ⟨rank_le_of_anchors_eq_false ht, hp.inPlace_of_not_follows ht,
      hx.inPlace_of_not_follows ht⟩
  · intro t _ ht
    exact ⟨rank_le_of_anchors ht, hp.inPlace_of_follows ht, hx.inPlace_of_follows ht⟩
  · intro s _ t _ hst ht
    exact ⟨Nat.le_trans hst.rank (rank_le_of_anchors ht),
      hp.inPlace_through ht hst.rank hst.parameter, hx.inPlace_through ht hst.rank hst.exception⟩

end Declaration

end DocComment

import DocComment.Proofs.Batch

/-! Which of two elements has its tag first. Where the names of a declaration are distinct, each
element goes before those that come later in declaration order (`pairwise_taggable`), and their
tags settle in any order alike (`settleAll_perm`). -/

namespace DocComment

/-- The names of a declaration tell its elements apart, and a type parameter from a value
parameter. -/
structure Declaration.Distinct (d : Declaration) : Prop where
  parameters_nodup : d.parameterNames.Nodup
  parameters_plain : ∀ n ∈ d.parameterNames, .char '.' ∉ n ∧ .char '<' ∉ n
  generics_nodup : d.typeParameters.Nodup
  generics_ne_nil : ∀ n ∈ d.typeParameters, n ≠ []
  exceptions_nodup : d.exceptionNames.Nodup

instance (d : Declaration) : Decidable d.Distinct :=
  decidable_of_iff (d.parameterNames.Nodup ∧
      (∀ n ∈ d.parameterNames, .char '.' ∉ n ∧ .char '<' ∉ n) ∧ d.typeParameters.Nodup ∧
      (∀ n ∈ d.typeParameters, n ≠ []) ∧ d.exceptionNames.Nodup)
    ⟨fun ⟨h1, h2, h3, h4, h5⟩ => ⟨h1, h2, h3, h4, h5⟩, fun ⟨h1, h2, h3, h4, h5⟩ =>
      ⟨h1, h2, h3, h4, h5⟩⟩

theorem Declaration.Distinct.legible {d : Declaration} {p : Policy} (hn : d.Distinct)
    (hs : d.Spelled p) : d.Legible p :=
  ⟨fun n hm => (hn.parameters_plain n hm).1, hn.generics_ne_nil, hs⟩

theorem Declaration.Distinct.with_doc {d : Declaration} (hn : d.Distinct) (doc : Option Block) :
    Distinct { d with doc } :=
  ⟨hn.parameters_nodup, hn.parameters_plain, hn.generics_nodup, hn.generics_ne_nil,
    hn.exceptions_nodup⟩

section take
variable {α : Type} {l : List α} {a : α} {i j : Nat}

theorem mem_take_of_lt (hi : l[i]? = some a) (hij : i < j) : a ∈ l.take j := by
  obtain ⟨hlt, rfl⟩ := List.getElem?_eq_some_iff.1 hi
  exact List.mem_take_iff_getElem.2 ⟨i, by omega, rfl⟩

theorem not_mem_take_of_le (hl : l.Nodup) (hj : l[j]? = some a) (hij : i ≤ j) :
    a ∉ l.take i := by
  intro hm
  obtain ⟨hlt, rfl⟩ := List.getElem?_eq_some_iff.1 hj
  obtain ⟨k, hk, heq⟩ := List.mem_take_iff_getElem.1 hm
  have := (List.getElem_inj hl).1 heq
  omega

end take

theorem pairwise_mapIdx {α β : Type} {R : β → β → Prop} {l : List α} {f : Nat → α → β}
    (h : ∀ i j a b, i < j → l[i]? = some a → l[j]? = some b → R (f i a) (f j b)) :
    (l.mapIdx f).Pairwise R := by
  rw [List.pairwise_iff_getElem]
  intro i j hi hj hij
  simp only [List.length_mapIdx] at hi hj
  simp only [List.getElem_mapIdx]
  exact h i j _ _ hij (List.getElem?_eq_getElem hi) (List.getElem?_eq_getElem hj)

theorem Text.not_mem_map_angled {s : Text} {names : List Text} (h : .char '<' ∉ s) :
    s ∉ names.map angled := by
  intro hm
  obtain ⟨n, -, rfl⟩ := List.mem_map.1 hm
  exact h List.mem_cons_self

theorem Text.mem_map_angled {s : Text} {names : List Text} :
    s.angled ∈ names.map angled ↔ s ∈ names := by
  constructor
  · intro hm
    obtain ⟨n, hn, heq⟩ := List.mem_map.1 hm
    exact angled_inj.1 heq ▸ hn
  · exact List.mem_map_of_mem

namespace Element

/-- What an element tells about its place: `f` is of a higher rank than `e`, or `e` is one of the
leading names of `f` and brings fewer of its own. -/
inductive Leads (e f : Element) : Prop
  | rank (h : e.role.tagKind.rank < f.role.tagKind.rank)
  | name {names names' : List Text} {a b : Text} (hk : e.role.tagKind = f.role.tagKind)
      (he : e.leading = some names) (hf : f.leading = some names') (hsub : names ⊆ names')
      (ha : e.argument = some a) (hb : f.argument = some b) (hmem : a ∈ names')
      (hnot : b ∉ names')

/-- The tag of `f` follows that of `e` and all that the tag of `e` follows, and neither documents
the other element. -/
structure Before (e f : Element) : Prop where
  mono : ∀ t, e.follows t = true → f.follows t = true
  follows : f.follows (e.tag false) = true
  not_follows : e.follows (f.tag false) = false
  apart : f.isDocumentedBy (e.tag false) = false
  apart' : e.isDocumentedBy (f.tag false) = false

variable {e f : Element} {ts : List Tag}

theorem Before.settle_comm (h : e.Before f) : f.settle (e.settle ts) = e.settle (f.settle ts) :=
  DocComment.settle_comm h.mono h.follows h.not_follows

theorem Before.ne (h : e.Before f) : e ≠ f := by
  rintro rfl
  exact Bool.noConfusion (h.follows.symm.trans h.not_follows)

theorem pairwise_apart {es fs : List Element} (hes : es.Pairwise Before) (hp : fs.Perm es) :
    fs.Pairwise fun e f => e.isDocumentedBy (f.tag false) = false ∧
      f.isDocumentedBy (e.tag false) = false :=
  (hp.pairwise_iff fun h => h.symm).2 (hes.imp fun h => ⟨h.apart', h.apart⟩)

/-- The order in which tags settle does not matter. -/
theorem settleAll_perm {es fs : List Element} (hes : es.Pairwise Before) (hp : fs.Perm es) :
    settleAll fs ts = settleAll es ts := by
  have hcomm : ∀ e ∈ es, ∀ f ∈ es, ∀ ts, f.settle (e.settle ts) = e.settle (f.settle ts) := by
    refine List.Pairwise.forall_of_forall_of_flip (fun e _ ts => rfl) ?_ ?_
    · exact hes.imp fun h ts => h.settle_comm
    · exact hes.imp fun h ts => h.settle_comm.symm
  exact (hp.symm.foldl_eq' (fun e he f hf ts => hcomm e he f hf ts) ts).symm

theorem isDocumentedBy_eq_false_of_rank {t : Tag} (h : t.kind.rank ≠ e.role.tagKind.rank) :
    e.isDocumentedBy t = false := by
  have hne : t.kind.canonical ≠ e.role.tagKind := fun heq =>
    h (by rw [← TagKind.rank_canonical, heq])
  simp [isDocumentedBy, hne]

theorem isDocumentedBy_eq_false_of_argument {t : Tag} {a : Text} (ha : e.argument = some a)
    (ht : t.argument ≠ e.argument) : e.isDocumentedBy t = false := by
  have hr : e.role ≠ .returned := fun hr => by simp [argument, hr] at ha
  simp [isDocumentedBy, hr, ht]

theorem Leads.before (he : (e.tag false).argument = e.argument)
    (hf : (f.tag false).argument = f.argument) (h : e.Leads f) : e.Before f := by
  cases h with
  | rank h =>
    have hlow : f.follows (e.tag false) = true := follows_iff.2 (.inl h)
    refine ⟨fun t ht => ?_, hlow, ?_, isDocumentedBy_eq_false_of_rank (Nat.ne_of_lt h),
      isDocumentedBy_eq_false_of_rank (Nat.ne_of_gt h)⟩
    · rcases follows_iff.1 ht with hlt | ⟨hsame, -⟩
      · exact follows_iff.2 (.inl (by omega))
      · exact follows_iff.2 (.inl (TagKind.rank_inj.2 hsame ▸ h))
    · by_contra hfo
      rcases follows_iff.1 (by simpa using hfo) with hlt | ⟨hsame, -⟩
      · rw [kind_tag] at hlt
        omega
      · exact Nat.ne_of_lt h (TagKind.rank_inj.2 hsame)
  | @name names names' a b hk hel hfl hsub ha hb hmem hnot =>
    have hab : a ≠ b := fun heq => hnot (heq ▸ hmem)
    have hlow : f.follows (e.tag false) = true :=
      follows_iff.2 (.inr ⟨by rw [kind_tag, hk], names', a, hfl, he.trans ha, hmem⟩)
    refine ⟨fun t ht => ?_, hlow, ?_, isDocumentedBy_eq_false_of_argument hb ?_,
      isDocumentedBy_eq_false_of_argument ha ?_⟩
    · rcases follows_iff.1 ht with hlt | ⟨hsame, ns, c, hns, hc, hm⟩
      · exact follows_iff.2 (.inl (hk ▸ hlt))
      · cases hel.symm.trans hns
        exact follows_iff.2 (.inr ⟨hk ▸ hsame, names', c, hfl, hc, hsub hm⟩)
    · by_contra hfo
      rcases follows_iff.1 (by simpa using hfo) with hlt | ⟨-, ns, c, hns, hc, hm⟩
      · rw [kind_tag, hk] at hlt
        exact Nat.lt_irrefl _ hlt
      · cases hel.symm.trans hns
        cases (hf.trans hb).symm.trans hc
        exact hnot (hsub hm)
    · simpa [he, ha, hb] using hab
    · simpa [hf, ha, hb] using hab.symm

end Element

namespace Declaration

open Element

variable {d : Declaration} {p : Policy}

theorem Distinct.generics (hn : d.Distinct) : (d.generics p).Nodup := by
  unfold Declaration.generics
  split
  · exact List.nodup_nil
  · exact hn.generics_nodup

theorem pairwise_typeParameterElements (hn : d.Distinct) :
    (d.typeParameterElements p).Pairwise Leads := by
  refine pairwise_mapIdx fun i j n m hij hi hj => .name rfl rfl rfl ?_ rfl rfl ?_ ?_
  · exact List.map_subset _ (List.take_subset_take_left _ (Nat.le_of_lt hij))
  · exact Text.mem_map_angled.2 (mem_take_of_lt hi hij)
  · rw [Text.mem_map_angled]
    exact not_mem_take_of_le hn.generics hj (Nat.le_refl j)

theorem not_mem_leading_valueParameter (hn : d.Distinct) {j : Nat} {n : Text}
    (hj : d.parameterNames[j]? = some n) :
    n ∉ d.parameterNames.take j ++ (d.generics p).map Text.angled := by
  rw [List.mem_append, not_or]
  exact ⟨not_mem_take_of_le hn.parameters_nodup hj (Nat.le_refl j),
    Text.not_mem_map_angled (hn.parameters_plain n (List.mem_of_getElem? hj)).2⟩

theorem pairwise_valueParameterElements (hn : d.Distinct) :
    (d.valueParameterElements p).Pairwise Leads := by
  refine pairwise_mapIdx fun i j n m hij hi hj => .name rfl rfl rfl ?_ rfl rfl ?_ ?_
  · exact List.append_subset.2 ⟨List.subset_append_of_subset_left _
      (List.take_subset_take_left _ (Nat.le_of_lt hij)), List.subset_append_right _ _⟩
  · exact List.mem_append_left _ (mem_take_of_lt hi hij)
  · exact not_mem_leading_valueParameter hn hj

theorem pairwise_returnElements {R : Element → Element → Prop} : d.returnElements.Pairwise R := by
  unfold returnElements
  split
  · exact List.pairwise_singleton _ _
  · exact List.Pairwise.nil

theorem pairwise_exceptionElements_of {R : Element → Element → Prop}
    (h : ∀ i j x y, i < j → d.thrown[i]? = some x → d.thrown[j]? = some y →
      R (.thrownException d.thrown p.qualifiedExceptionNames i x)
        (.thrownException d.thrown p.qualifiedExceptionNames j y)) :
    (d.exceptionElements p).Pairwise R := by
  rw [exceptionElements, List.pairwise_filterMap, List.pairwise_iff_getElem]
  intro i j hi hj hij e he f hf
  simp only [List.length_zipIdx] at hi hj
  simp only [List.getElem_zipIdx, Nat.zero_add, Option.ite_none_right_eq_some,
    Option.some.injEq] at he hf
  obtain ⟨-, rfl⟩ := he
  obtain ⟨-, rfl⟩ := hf
  exact h i j _ _ hij (List.getElem?_eq_getElem hi) (List.getElem?_eq_getElem hj)

theorem getElem?_exceptionNames {i : Nat} {x : ThrownException} (hi : d.thrown[i]? = some x) :
    d.exceptionNames[i]? = some x.simpleName := by
  rw [exceptionNames, List.getElem?_map, hi]
  rfl

theorem pairwise_exceptionElements (hn : d.Distinct) :
    (d.exceptionElements p).Pairwise Leads := by
  refine pairwise_exceptionElements_of fun i j x y hij hi hj =>
    .name rfl rfl rfl ?_ rfl rfl ?_ ?_
  · exact List.map_subset _ (List.take_subset_take_left _ (Nat.le_of_lt hij))
  · rw [List.map_take]
    exact mem_take_of_lt (getElem?_exceptionNames hi) hij
  · rw [List.map_take]
    exact not_mem_take_of_le hn.exceptions_nodup (getElem?_exceptionNames hj) (Nat.le_refl j)

theorem leads_valueParameter (hn : d.Distinct) {e f : Element}
    (he : e ∈ d.typeParameterElements p) (hf : f ∈ d.valueParameterElements p) : e.Leads f := by
  obtain ⟨i, n, hi, rfl⟩ := mem_typeParameterElements.1 he
  obtain ⟨j, m, hj, rfl⟩ := mem_valueParameterElements.1 hf
  refine .name rfl rfl rfl ?_ rfl rfl ?_ ?_
  · exact List.subset_append_of_subset_right _ (List.map_subset _ (List.take_subset _ _))
  · exact List.mem_append_right _ (List.mem_map_of_mem (List.mem_of_getElem? hi))
  · exact not_mem_leading_valueParameter hn hj

theorem pairwise_leads (hn : d.Distinct) : (d.taggable p).Pairwise Leads := by
  have hparam : ∀ e ∈ d.typeParameterElements p ++ d.valueParameterElements p,
      e.role.tagKind = .param := by
    intro e he
    rcases List.mem_append.1 he with he | he
    · obtain ⟨i, n, -, rfl⟩ := mem_typeParameterElements.1 he
      rfl
    · obtain ⟨i, n, -, rfl⟩ := mem_valueParameterElements.1 he
      rfl
  unfold taggable
  split
  · refine List.pairwise_append.2 ⟨List.pairwise_append.2 ⟨List.pairwise_append.2
      ⟨pairwise_typeParameterElements hn, pairwise_valueParameterElements hn,
        fun e he f hf => leads_valueParameter hn he hf⟩, pairwise_returnElements, ?_⟩,
      pairwise_exceptionElements hn, ?_⟩
    · intro e he f hf
      obtain ⟨-, rfl⟩ := mem_returnElements.1 hf
      exact .rank (by rw [hparam e he]; decide)
    · intro e he f hf
      obtain ⟨j, x, -, -, rfl⟩ := mem_exceptionElements.1 hf
      rcases List.mem_append.1 he with he | he
      · refine .rank ?_
        rw [hparam e he]
        exact (by decide : TagKind.param.rank < TagKind.throws.rank)
      · obtain ⟨-, rfl⟩ := mem_returnElements.1 he
        exact .rank (by decide : TagKind.returns.rank < TagKind.throws.rank)
  · exact pairwise_typeParameterElements hn
  · exact List.Pairwise.nil

/-- Declaration order is the order of the tags, for each two elements and among any tags. -/
theorem pairwise_taggable (hn : d.Distinct) (hs : d.Spelled p) :
    (d.taggable p).Pairwise Before := by
  refine (pairwise_leads hn).imp_of_mem fun he hf h => h.before ?_ ?_
  · exact (hn.legible hs).argument_tag (mem_taggable.1 he)
  · exact (hn.legible hs).argument_tag (mem_taggable.1 hf)

theorem pairwise_missing (hn : d.Distinct) (hs : d.Spelled p) :
    (d.missing p).Pairwise Before := (pairwise_taggable hn hs).filter _

/-- Tags in no order, and an element of each role that lacks its own. -/
def scattered : Declaration :=
  { kind := .method
    name := "lookup"
    parameters := [⟨"key", []⟩, ⟨"fallback", []⟩]
    typeParameters := ["K", "V"]
    returnType := some ("V" : String)
    thrown := [⟨"IOException", some ("java.io.IOException" : String)⟩, ⟨"Unseen", none⟩]
    doc := some { tags := [
      { kind := .see },
      { kind := .param, fragments := [.identifier "stale"] },
      { kind := .param, fragments := [.text "<K>"] },
      { kind := .author },
      { kind := .param, fragments := [.identifier "key"] }] } }

end Declaration

end DocComment

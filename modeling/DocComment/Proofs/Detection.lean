import DocComment.Proofs.Alike
import DocComment.Proofs.Crossing

/-! What a declaration lacks. The list of missing elements has the elements that `Declaration.Lacks`
describes (`mem_missing_iff_lacks`), in the order of a signature. Of a doc comment it depends on
the keys of the tags alone, and on these as a set: more keys leave fewer elements
(`undocumented_sublist`). The lookups of a block find a tag for just those elements that are
documented (`missing_eq_filter_lookup?`). -/

namespace DocComment

def Role.place : Role → Nat
  | .typeParameter => 0
  | .valueParameter => 1
  | .returned => 2
  | .thrownException => 3

/-- The order of a signature: by role, and by position within a role. -/
def Element.Earlier (e f : Element) : Prop :=
  e.role.place < f.role.place ∨ e.role = f.role ∧ e.position < f.position

namespace Declaration

open Element

/-- The elements that ought to have a tag and have none. A field or an enum constant has no such
elements, a type only its type parameters. -/
inductive Lacks (d : Declaration) (p : Policy) : Element → Prop
  | typeParameter {i : Nat} {n : Text}
      (hk : d.kind = .type ∨ d.kind = .method ∧ p.methodTypeParameters = true)
      (hi : d.typeParameters[i]? = some n) (hnone : ¬ HasParam d.tags n.angled) :
      Lacks d p (.typeParameter d.typeParameters i n)
  | valueParameter {i : Nat} {n : Text} (hk : d.kind = .method)
      (hi : d.parameterNames[i]? = some n) (hnone : ¬ HasParam d.tags n) :
      Lacks d p (.valueParameter d.parameterNames (d.generics p) i n)
  | returned {type : Text} (hk : d.kind = .method) (hc : d.isConstructor = false)
      (hr : d.returnType = some type) (hv : type ≠ "void")
      (hnone : ∀ t ∈ d.tags, t.kind ≠ .returns) : Lacks d p .returned
  | thrownException {i : Nat} {x : ThrownException} (hk : d.kind = .method)
      (hi : d.thrown[i]? = some x) (hx : x.resolvedName ≠ none)
      (hnone : ∀ t ∈ d.tags, t.kind = .throws ∨ t.kind = .exception →
        t.argument ≠ some x.simpleName) :
      Lacks d p (.thrownException d.thrown p.qualifiedExceptionNames i x)

variable {d : Declaration} {p : Policy} {e : Element}

theorem getElem?_generics {i : Nat} {n : Text} : (d.generics p)[i]? = some n ↔
    ¬ (d.kind = .method ∧ p.methodTypeParameters = false) ∧ d.typeParameters[i]? = some n := by
  unfold generics
  split
  next h => simp [h]
  next h => exact (and_iff_right h).symm

theorem documentsReturn_iff : d.documentsReturn = true ↔ d.kind = .method ∧
    d.isConstructor = false ∧ ∃ type, d.returnType = some type ∧ type ≠ "void" := by
  unfold documentsReturn isVoid
  cases d.returnType <;> simp [and_assoc]

theorem canonical_eq_returns {k : TagKind} : k.canonical = .returns ↔ k = .returns := by
  cases k <;> decide

theorem canonical_eq_throws {k : TagKind} :
    k.canonical = .throws ↔ k = .throws ∨ k = .exception := by
  cases k <;> decide

theorem documents_returned :
    d.documents .returned = true ↔ ∃ t ∈ d.tags, t.kind = .returns := by
  simp [documents, isDocumentedBy, Element.returned, Role.tagKind, canonical_eq_returns]

theorem documents_thrownException {xs : List ThrownException} {q : Bool} {i : Nat}
    {x : ThrownException} : d.documents (.thrownException xs q i x) = true ↔
      ∃ t ∈ d.tags, (t.kind = .throws ∨ t.kind = .exception) ∧ t.argument = some x.simpleName := by
  have hdoc : ∀ t, (Element.thrownException xs q i x).isDocumentedBy t = true ↔
      t.kind.canonical = .throws ∧ t.argument = some x.simpleName := by
    intro t
    simp only [isDocumentedBy, Bool.and_eq_true, Bool.or_eq_true, decide_eq_true_eq]
    exact and_congr_right fun _ => or_iff_right Role.noConfusion
  simp only [documents, List.any_eq_true, hdoc, canonical_eq_throws]

/-- Where the lookup for the element's role finds a tag. -/
def lookup? (d : Declaration) (e : Element) : Option Nat :=
  match e.role with
  | .typeParameter => d.block.findParam? e.name.angled
  | .valueParameter => d.block.findParam? e.name
  | .returned => d.block.find? .returns none
  | .thrownException => d.block.findThrows? e.name

theorem lookup?_eq (d : Declaration) (e : Element) :
    d.lookup? e = d.tags.findIdx? e.isDocumentedBy := by
  have hparam : ∀ a, e.role.tagKind = .param → e.argument = some a → e.role ≠ .returned →
      Block.isTagOf .param (some a) = e.isDocumentedBy := by
    intro a hk ha hr
    funext t
    simp [Block.isTagOf, isDocumentedBy, hk, ha, hr, canonical_eq_param]
  rw [← tags_block, lookup?]
  cases hr : e.role with
  | typeParameter =>
    rw [← hparam e.name.angled] <;> simp [hr, argument, Role.tagKind, Block.findParam?, Block.find?]
  | valueParameter =>
    rw [← hparam e.name] <;> simp [hr, argument, Role.tagKind, Block.findParam?, Block.find?]
  | returned =>
    refine congrArg (d.block.tags.findIdx? ·) (funext fun t => ?_)
    simp [Block.isTagOf, isDocumentedBy, hr, Role.tagKind, canonical_eq_returns]
  | thrownException =>
    refine congrArg (d.block.tags.findIdx? ·) (funext fun t => ?_)
    simp [Block.isThrowsOf, isDocumentedBy, hr, Role.tagKind, argument]

theorem documents_eq_isSome_lookup? (d : Declaration) (e : Element) :
    d.documents e = (d.lookup? e).isSome := by
  rw [lookup?_eq, List.findIdx?_isSome, documents]

/-- What is missing takes a tag, and its lookup finds none. -/
theorem missing_eq_filter_lookup? (d : Declaration) (p : Policy) :
    d.missing p = (d.taggable p).filter fun e => (d.lookup? e).isNone := by
  refine List.filter_congr fun e _ => ?_
  rw [documents_eq_isSome_lookup?, Option.not_isSome]

theorem mem_missing_iff_lacks : e ∈ d.missing p ↔ d.Lacks p e := by
  rw [mem_missing, ← Bool.not_eq_true]
  constructor
  · rintro ⟨htakes, hdoc⟩
    cases htakes with
    | typeParameter hk hi =>
      obtain ⟨hkept, hi'⟩ := getElem?_generics.1 hi
      have hg : d.generics p = d.typeParameters := if_neg hkept
      rw [hg] at hdoc ⊢
      refine .typeParameter ?_ hi' (mt documents_typeParameter.2 hdoc)
      exact hk.symm.imp_right fun hm => ⟨hm, by simpa [hm] using hkept⟩
    | valueParameter hk hi => exact .valueParameter hk hi (mt documents_valueParameter.2 hdoc)
    | returned hk hr =>
      obtain ⟨-, hc, type, htype, hv⟩ := documentsReturn_iff.1 hr
      refine .returned hk hc htype hv fun t ht hkind => hdoc ?_
      exact documents_returned.2 ⟨t, ht, hkind⟩
    | thrownException hk hi hx =>
      refine .thrownException hk hi (Option.isSome_iff_ne_none.1 hx) fun t ht hkind harg => hdoc ?_
      exact documents_thrownException.2 ⟨t, ht, hkind, harg⟩
  · intro h
    cases h with
    | typeParameter hk hi hnone =>
      have hkept : ¬ (d.kind = .method ∧ p.methodTypeParameters = false) := by
        rcases hk with hk | ⟨hk, hp⟩ <;> simp [*]
      have hg : d.generics p = d.typeParameters := if_neg hkept
      refine ⟨hg ▸ .typeParameter (hk.symm.imp_left And.left) (hg ▸ hi), ?_⟩
      exact mt documents_typeParameter.1 hnone
    | valueParameter hk hi hnone =>
      exact ⟨.valueParameter hk hi, mt documents_valueParameter.1 hnone⟩
    | returned hk hc hr hv hnone =>
      refine ⟨.returned hk (documentsReturn_iff.2 ⟨hk, hc, _, hr, hv⟩), fun hdoc => ?_⟩
      obtain ⟨t, ht, hkind⟩ := documents_returned.1 hdoc
      exact hnone t ht hkind
    | thrownException hk hi hx hnone =>
      refine ⟨.thrownException hk hi (Option.isSome_iff_ne_none.2 hx), fun hdoc => ?_⟩
      obtain ⟨t, ht, hkind, harg⟩ := documents_thrownException.1 hdoc
      exact hnone t ht hkind harg

theorem Earlier.ne {f : Element} (h : e.Earlier f) : e ≠ f := by
  rintro rfl
  rcases h with h | ⟨-, h⟩ <;> exact Nat.lt_irrefl _ h

/-- Sorted elements, all of a role before the place `k`. -/
structure SortedTo (k : Nat) (es : List Element) : Prop where
  sorted : es.Pairwise Earlier
  place : ∀ e ∈ es, e.role.place < k

section
variable {k : Nat} {es fs : List Element} (hfs : fs.Pairwise Earlier)
  (hk : ∀ f ∈ fs, f.role.place = k)
include hfs hk

theorem SortedTo.of_place : SortedTo (k + 1) fs :=
  ⟨hfs, fun f hf => hk f hf ▸ Nat.lt_succ_self _⟩

theorem SortedTo.append (hes : SortedTo k es) : SortedTo (k + 1) (es ++ fs) := by
  have hlast := SortedTo.of_place hfs hk
  refine ⟨List.pairwise_append.2 ⟨hes.sorted, hfs, fun e he f hf => .inl ?_⟩,
    List.forall_mem_append.2 ⟨fun e he => Nat.lt_succ_of_lt (hes.place e he), hlast.place⟩⟩
  rw [hk f hf]
  exact hes.place e he

end

theorem sortedTo_typeParameterElements : SortedTo 1 (d.typeParameterElements p) := by
  refine .of_place (pairwise_mapIdx fun _ _ _ _ h _ _ => .inr ⟨rfl, h⟩) fun e he => ?_
  obtain ⟨i, n, -, rfl⟩ := mem_typeParameterElements.1 he
  rfl

theorem pairwise_valueParameterElements_earlier :
    (d.valueParameterElements p).Pairwise Earlier :=
  pairwise_mapIdx fun _ _ _ _ h _ _ => .inr ⟨rfl, h⟩

theorem pairwise_exceptionElements_earlier : (d.exceptionElements p).Pairwise Earlier :=
  pairwise_exceptionElements_of fun _ _ _ _ h _ _ => .inr ⟨rfl, h⟩

theorem pairwise_taggable_earlier : (d.taggable p).Pairwise Earlier := by
  unfold taggable
  split
  · refine (SortedTo.append pairwise_exceptionElements_earlier ?_ <|
      SortedTo.append pairwise_returnElements ?_ <|
      SortedTo.append pairwise_valueParameterElements_earlier ?_ <|
      sortedTo_typeParameterElements).sorted
    · intro e he
      obtain ⟨i, x, -, -, rfl⟩ := mem_exceptionElements.1 he
      rfl
    · intro e he
      obtain ⟨-, rfl⟩ := mem_returnElements.1 he
      rfl
    · intro e he
      obtain ⟨i, n, -, rfl⟩ := mem_valueParameterElements.1 he
      rfl
  · exact sortedTo_typeParameterElements.sorted
  · exact .nil

theorem pairwise_missing_earlier : (d.missing p).Pairwise Earlier :=
  pairwise_taggable_earlier.filter _

/-- Detection finds what the declaration lacks, each element once and in the order of the signature.
Under another doc comment with the same keys it finds the same, and with more keys a part of it. -/
theorem missingElements_spec (d : Declaration) (p : Policy) (hk : d.kind ∈ DeclarationKind.known) :
    ∃ es, d.missingElements p = .ok es ∧ (∀ e, e ∈ es ↔ d.Lacks p e) ∧ es.Nodup ∧
      es.Pairwise Earlier ∧
      ∀ doc : Option Block, ∃ es', missingElements { d with doc } p = .ok es' ∧
        (d.keys ⊆ keys { d with doc } → es'.Sublist es) ∧
        ((∀ k, k ∈ d.keys ↔ k ∈ keys { d with doc }) → es' = es) := by
  refine ⟨_, missingElements_of_known hk, fun e => mem_missing_iff_lacks,
    pairwise_missing_earlier.imp Earlier.ne, pairwise_missing_earlier, fun doc => ?_⟩
  refine ⟨_, missingElements_of_known (d := { d with doc }) hk,
    fun h => undocumented_sublist h (d.taggable p), fun h => ?_⟩
  have hless := undocumented_sublist (fun k => (h k).1) (d.taggable p)
  exact hless.antisymm (undocumented_sublist (fun k => (h k).2) (d.taggable p))

def gathered : Block := { summary := "Looks up.", tags := scattered.tags.reverse ++ scattered.tags }

def returning : Block := { tags := { kind := .returns } :: scattered.tags }

theorem missingElements_gathered_returning : ∃ es es',
    scattered.missingElements {} = .ok es ∧
    missingElements { scattered with doc := some gathered } {} = .ok es ∧
    missingElements { scattered with doc := some returning } {} = .ok es' ∧
    es'.Sublist es ∧ es.length = 4 ∧ es'.length = 3 := by
  obtain ⟨es, hes, -, -, -, hdoc⟩ := missingElements_spec scattered {} (by decide)
  obtain ⟨_, hgathered, -, hsame⟩ := hdoc (some gathered)
  obtain ⟨es', hreturning, hless, -⟩ := hdoc (some returning)
  have hkeys : ∀ k, k ∈ scattered.keys ↔ k ∈ keys { scattered with doc := some gathered } := by
    intro k
    simp [keys, tags, gathered]
  obtain rfl := hsame hkeys
  refine ⟨_, es', hes, hgathered, hreturning, hless (List.subset_cons_self _ _), ?_⟩
  cases hes
  cases hreturning
  decide

end Declaration

end DocComment

import DocComment.Placement
import Mathlib.Data.List.Basic

/-! The elements that take a tag, role by role, and the tags that are made for them. A tag made for
an element documents it where the names of the declaration are legible
(`Legible.isDocumentedBy_tag`); for the element at one place, exactly where its own name reads back
(`At.argument_tag_iff`). More tags never leave more elements undocumented
(`undocumented_sublist`). -/

namespace DocComment

/-- Where exceptions are written in full, the last segment is the name that documents them. -/
def Declaration.Spelled (d : Declaration) (p : Policy) : Prop :=
  p.qualifiedExceptionNames = true → ∀ x ∈ d.thrown, x.isResolved = true →
    x.typeName = [] ∨ x.typeName.simpleName = x.simpleName

instance (d : Declaration) (p : Policy) : Decidable (d.Spelled p) :=
  inferInstanceAs (Decidable (p.qualifiedExceptionNames = true → ∀ x ∈ d.thrown, _))

/-- The names of a declaration can be read back from the tags that are made with them. -/
structure Declaration.Legible (d : Declaration) (p : Policy) : Prop where
  parameters : ∀ n ∈ d.parameterNames, .char '.' ∉ n
  generics : ∀ n ∈ d.typeParameters, n ≠ []
  exceptions : d.Spelled p

namespace Declaration

/-- The elements of a declaration that take a tag under a policy. -/
inductive Takes (d : Declaration) (p : Policy) : Element → Prop
  | typeParameter {i : Nat} {n : Text} (hk : d.kind = .method ∨ d.kind = .type)
      (hi : (d.generics p)[i]? = some n) : Takes d p (.typeParameter (d.generics p) i n)
  | valueParameter {i : Nat} {n : Text} (hk : d.kind = .method)
      (hi : d.parameterNames[i]? = some n) :
      Takes d p (.valueParameter d.parameterNames (d.generics p) i n)
  | returned (hk : d.kind = .method) (hr : d.documentsReturn = true) : Takes d p .returned
  | thrownException {i : Nat} {x : ThrownException} (hk : d.kind = .method)
      (hi : d.thrown[i]? = some x) (hx : x.isResolved = true) :
      Takes d p (.thrownException d.thrown p.qualifiedExceptionNames i x)

variable {d : Declaration} {p : Policy} {e : Element}

theorem mem_typeParameterElements : e ∈ d.typeParameterElements p ↔
    ∃ i n, (d.generics p)[i]? = some n ∧ e = .typeParameter (d.generics p) i n := by
  simp only [typeParameterElements, List.mem_iff_getElem?, List.getElem?_mapIdx,
    Option.map_eq_some_iff, @eq_comm _ e]

theorem mem_valueParameterElements : e ∈ d.valueParameterElements p ↔
    ∃ i n, d.parameterNames[i]? = some n ∧
      e = .valueParameter d.parameterNames (d.generics p) i n := by
  simp only [valueParameterElements, List.mem_iff_getElem?, List.getElem?_mapIdx,
    Option.map_eq_some_iff, @eq_comm _ e]

theorem mem_returnElements : e ∈ d.returnElements ↔ d.documentsReturn = true ∧ e = .returned := by
  unfold returnElements
  split <;> simp_all

theorem mem_exceptionElements : e ∈ d.exceptionElements p ↔
    ∃ i x, d.thrown[i]? = some x ∧ x.isResolved = true ∧
      e = .thrownException d.thrown p.qualifiedExceptionNames i x := by
  constructor
  · intro h
    obtain ⟨⟨x, i⟩, hx, he⟩ := List.mem_filterMap.1 h
    simp only [Option.ite_none_right_eq_some, Option.some.injEq] at he
    exact ⟨i, x, List.mk_mem_zipIdx_iff_getElem?.1 hx, he.1, he.2.symm⟩
  · rintro ⟨i, x, hi, hr, rfl⟩
    refine List.mem_filterMap.2 ⟨(x, i), List.mk_mem_zipIdx_iff_getElem?.2 hi, ?_⟩
    simp [hr]

theorem mem_taggable : e ∈ d.taggable p ↔ d.Takes p e := by
  constructor
  · intro h
    unfold taggable at h
    split at h
    next hk =>
      simp only [List.mem_append, mem_typeParameterElements, mem_valueParameterElements,
        mem_returnElements, mem_exceptionElements] at h
      obtain ((⟨i, n, hi, rfl⟩ | ⟨i, n, hi, rfl⟩) | ⟨hr, rfl⟩) | ⟨i, x, hi, hx, rfl⟩ := h
      · exact .typeParameter (.inl hk) hi
      · exact .valueParameter hk hi
      · exact .returned hk hr
      · exact .thrownException hk hi hx
    next hk =>
      obtain ⟨i, n, hi, rfl⟩ := mem_typeParameterElements.1 h
      exact .typeParameter (.inr hk) hi
    next => cases h
  · intro h
    cases h with
    | typeParameter hk hi =>
      have hmem := mem_typeParameterElements.2 ⟨_, _, hi, rfl⟩
      rcases hk with hk | hk <;> simp [taggable, hk, hmem]
    | valueParameter hk hi =>
      simp [taggable, hk, mem_valueParameterElements.2 ⟨_, _, hi, rfl⟩]
    | returned hk hr => simp [taggable, hk, mem_returnElements.2 ⟨hr, rfl⟩]
    | thrownException hk hi hx =>
      simp [taggable, hk, mem_exceptionElements.2 ⟨_, _, hi, hx, rfl⟩]

theorem mem_missing : e ∈ d.missing p ↔ d.Takes p e ∧ d.documents e = false := by
  simp [missing, mem_taggable]

theorem mem_generics {n : Text} (h : n ∈ d.generics p) : n ∈ d.typeParameters := by
  unfold generics at h
  split at h
  · cases h
  · exact h

end Declaration

theorem Role.canonical_tagKind (r : Role) : r.tagKind.canonical = r.tagKind := by cases r <;> rfl

namespace Element

variable {d : Declaration} {p : Policy} {e : Element} {fresh : Bool}

theorem isDocumentedBy_congr {t u : Tag} (h : t.key = u.key) :
    e.isDocumentedBy t = e.isDocumentedBy u := by
  obtain ⟨hkind, harg⟩ := Prod.mk.inj h
  rw [isDocumentedBy, isDocumentedBy, hkind, harg]

@[simp] theorem kind_tag : (e.tag fresh).kind = e.role.tagKind := rfl

theorem argument_tag_valueParameter {names generics : List Text} {i : Nat} {n : Text} :
    ((valueParameter names generics i n).tag fresh).argument = some n.simpleName := rfl

theorem argument_tag_typeParameter {names : List Text} {i : Nat} {n : Text} (h : n ≠ []) :
    ((typeParameter names i n).tag fresh).argument = some n.angled := by
  simp [Tag.argument, Element.tag, placeholderTag, typeParameter, Role.tagKind,
    Tag.genericArgument, Text.angled_ne_open, Text.isAngled_angled.2 h]

theorem argument_tag_typeParameter_iff {names : List Text} {i : Nat} {n : Text} :
    ((typeParameter names i n).tag fresh).argument = some n.angled ↔ n ≠ [] := by
  refine ⟨?_, argument_tag_typeParameter⟩
  rintro h rfl
  cases h

theorem argument_tag_thrownException {xs : List ThrownException} {q : Bool} {i : Nat}
    {x : ThrownException} : ((thrownException xs q i x).tag fresh).argument =
      some (if x.spelling q = [] then x.simpleName else x.spelling q).simpleName := rfl

theorem isDocumentedBy_tag_iff :
    e.isDocumentedBy (e.tag fresh) = true ↔ (e.tag fresh).argument = e.argument := by
  simp only [isDocumentedBy, kind_tag, Role.canonical_tagKind, decide_true, Bool.true_and,
    Bool.or_eq_true, decide_eq_true_iff]
  refine or_iff_right_of_imp fun hr => ?_
  -- a return tag has no argument
  obtain ⟨role, name, position, leading, typeText⟩ := e
  cases hr
  rfl

end Element

theorem Text.simpleName_simpleName (s : Text) : s.simpleName.simpleName = s.simpleName :=
  simpleName_eq_self_iff.2 (not_mem_afterLast _ s)

theorem ThrownException.simpleName_simpleName (x : ThrownException) :
    x.simpleName.simpleName = x.simpleName := by
  unfold simpleName
  split
  · exact Text.simpleName_simpleName _
  · split <;> exact Text.simpleName_simpleName _

theorem ThrownException.simpleName_spelled_iff {x : ThrownException} {q : Bool} :
    (if x.spelling q = [] then x.simpleName else x.spelling q).simpleName = x.simpleName ↔
      (q = true → x.typeName = [] ∨ x.typeName.simpleName = x.simpleName) := by
  cases q with
  | false => simp [spelling, x.simpleName_simpleName]
  | true =>
    by_cases hn : x.typeName = []
    · simp [spelling, hn, x.simpleName_simpleName]
    · simp [spelling, hn]

namespace Declaration.Legible

variable {d : Declaration} {p : Policy} {e : Element} {fresh : Bool}

theorem argument_tag (h : d.Legible p) (he : d.Takes p e) :
    (e.tag fresh).argument = e.argument := by
  cases he with
  | typeParameter hk hi =>
    have hn := h.generics _ (mem_generics (List.mem_of_getElem? hi))
    rw [Element.argument_tag_typeParameter hn]
    rfl
  | valueParameter hk hi =>
    have hn := h.parameters _ (List.mem_of_getElem? hi)
    rw [Element.argument_tag_valueParameter, Text.simpleName_eq_self_iff.2 hn]
    rfl
  | returned hk hr => rfl
  | @thrownException i x hk hi hx =>
    rw [Element.argument_tag_thrownException, x.simpleName_spelled_iff.2 fun hq =>
      h.exceptions hq x (List.mem_of_getElem? hi) hx]
    rfl

theorem isDocumentedBy_tag (h : d.Legible p) (he : d.Takes p e) :
    e.isDocumentedBy (e.tag fresh) = true := Element.isDocumentedBy_tag_iff.2 (h.argument_tag he)

end Declaration.Legible

namespace Declaration

variable {d d' : Declaration} {p : Policy} {e : Element} {fresh : Bool} {r : Role} {i : Int}

/-- All that detection sees of a doc comment; nothing where there is none. -/
def keys (d : Declaration) : List (TagKind × Option Text) := d.tags.map Tag.key

theorem documents_mono (h : d.keys ⊆ d'.keys) (hdoc : d.documents e = true) :
    d'.documents e = true := by
  obtain ⟨t, ht, he⟩ := List.any_eq_true.1 hdoc
  obtain ⟨u, hu, hkey⟩ := List.mem_map.1 (h (List.mem_map_of_mem ht))
  exact List.any_eq_true.2 ⟨u, hu, (Element.isDocumentedBy_congr hkey).trans he⟩

theorem undocumented_sublist (h : d.keys ⊆ d'.keys) (es : List Element) :
    (es.filter fun e => !d'.documents e).Sublist (es.filter fun e => !d.documents e) := by
  refine List.monotone_filter_right es fun e he => ?_
  rw [Bool.not_eq_true', ← Bool.not_eq_true] at he ⊢
  exact mt (documents_mono h) he

/-- The elements at the places of a declaration, whether or not they take a tag. -/
inductive At (d : Declaration) (p : Policy) : Role → Int → Element → Prop
  | typeParameter {i : Int} {n : Text} (hi : d.typeParameters[i.toNat]? = some n) :
      At d p .typeParameter i (.typeParameter d.typeParameters i.toNat n)
  | valueParameter {i : Int} {n : Text} (hi : d.parameterNames[i.toNat]? = some n) :
      At d p .valueParameter i (.valueParameter d.parameterNames d.typeParameters i.toNat n)
  | returned {i : Int} : At d p .returned i .returned
  | thrownException {i : Int} {x : ThrownException} (hi : d.thrown[i.toNat]? = some x) :
      At d p .thrownException i (.thrownException d.thrown p.qualifiedExceptionNames i.toNat x)

theorem at_of_elementAt (he : d.elementAt r i p = .ok e) : d.At p r i e := by
  unfold elementAt at he
  dsimp only at he
  split at he
  next =>
    cases he
    exact .returned
  next r _ _ _ hrole hfound =>
    split at he
    next => cases he
    next =>
      cases he
      cases r with
      | returned => exact absurd rfl hrole
      | typeParameter =>
        obtain ⟨n, hi, rfl⟩ := Option.map_eq_some_iff.1 hfound
        exact .typeParameter hi
      | valueParameter =>
        obtain ⟨n, hi, rfl⟩ := Option.map_eq_some_iff.1 hfound
        exact .valueParameter hi
      | thrownException =>
        obtain ⟨x, hi, rfl⟩ := Option.map_eq_some_iff.1 hfound
        exact .thrownException hi
  next => cases he

/-- The name of the element at a place can be read back from a tag that is made with it. -/
def ReadsBack (d : Declaration) (p : Policy) (r : Role) (position : Int) : Prop :=
  match r with
  | .valueParameter => ∀ n ∈ d.parameterNames[position.toNat]?, .char '.' ∉ n
  | .typeParameter => ∀ n ∈ d.typeParameters[position.toNat]?, n ≠ []
  | .returned => True
  | .thrownException => p.qualifiedExceptionNames = true → ∀ x ∈ d.thrown[position.toNat]?,
      x.typeName = [] ∨ x.typeName.simpleName = x.simpleName

theorem At.argument_tag_iff (he : d.At p r i e) :
    (e.tag fresh).argument = e.argument ↔ d.ReadsBack p r i := by
  cases he with
  | typeParameter hi =>
    simp only [ReadsBack, hi, Option.mem_some_iff, forall_eq']
    exact Element.argument_tag_typeParameter_iff
  | valueParameter hi =>
    simp only [ReadsBack, hi, Option.mem_some_iff, forall_eq', ← Text.simpleName_eq_self_iff]
    exact Option.some_inj
  | returned => exact iff_of_true rfl trivial
  | thrownException hi =>
    simp only [ReadsBack, hi, Option.mem_some_iff, forall_eq',
      ← ThrownException.simpleName_spelled_iff]
    exact Option.some_inj

end Declaration

end DocComment

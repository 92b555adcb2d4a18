import DocComment.Proofs.Batch

/-! Sessions: plans asked for one after the other, each with its own policy. A single request adds
the tag of an element that lacks it, whatever type parameters the policy leaves out
(`planOne_cases`). `Yields` lists what the steps on a declaration of a known kind do. They all give
a plan, but for the refusal of an integer that is too long to be told (`step_eq_error_iff`), and
behind such a step the session goes on. -/

namespace DocComment

inductive Step
  | addAll (p : Policy) (indent : Text)
  | addOne (p : Policy) (r : Role) (position : Int)
  | remove (index : Int)
  deriving DecidableEq, Inhabited

def Step.policy? : Step → Option Policy
  | .addAll p _ => some p
  | .addOne p _ _ => some p
  | .remove _ => none

/-- A plan that inserts nothing: it shows the tags as they are, or has an error and nothing else. -/
structure Plan.Keeps (plan : Plan) (ts : List Tag) : Prop where
  insertions : plan.insertions = []
  tags : plan.errors = [] → plan.tags = ts
  alone : plan.errors ≠ [] → plan = { errors := plan.errors }

theorem Plan.keeps_refused (m : Text) (ts : List Tag) : (refused m).Keeps ts :=
  ⟨rfl, fun h => absurd h (List.cons_ne_nil _ _), fun _ => rfl⟩

theorem Plan.keeps_noted (l : Option Label) (n : Notice) (ts : List Tag) :
    (noted l n ts).Keeps ts := ⟨rfl, fun _ => rfl, fun h => absurd rfl h⟩

theorem Plan.keeps_commented (l : Label) (stub : Text) : (commented l stub).Keeps [] :=
  ⟨rfl, fun _ => rfl, fun h => absurd rfl h⟩

/-- A plan that puts one tag among those of `d`, which is `d'` then and otherwise as it was. -/
structure Plan.Adds (plan : Plan) (i : Insertion) (d d' : Declaration) : Prop where
  insertions : plan.insertions = [i]
  inBounds : i.index ≤ d.tags.length
  tags : plan.tags = d.tags.insertIdx i.index i.tag
  left : d' = { d with
    doc := some { summary := (d.doc.map Block.summary).getD [], tags := plan.tags } }

def Policy.withGenerics (p : Policy) : Policy := { p with methodTypeParameters := true }

/-- The policy by which a single request for a role looks for tags. -/
def Policy.offering (p : Policy) (r : Role) : Policy :=
  if r = .typeParameter then p.withGenerics else p

namespace Declaration

def step (d : Declaration) : Step → Except PlanFault (Plan × Declaration)
  | .addAll p indent => d.planAll p indent
  | .addOne p r i => d.planOne p r i
  | .remove i => d.planRemove i

/-- What comes of a step and what it leaves behind: one that fails, the declaration as it was. -/
def attempt (d : Declaration) (s : Step) : Except PlanFault Plan × Declaration :=
  match d.step s with
  | .ok (plan, d') => (.ok plan, d')
  | .error f => (.error f, d)

/-- A session: what comes of its steps, each on what the ones before have left behind, and what is
left in the end. -/
def run (d : Declaration) : List Step → List (Except PlanFault Plan) × Declaration
  | [] => ([], d)
  | s :: ss =>
    let (out, d') := d.attempt s
    let (outs, last) := d'.run ss
    (out :: outs, last)

/-- The step is to be refused for an integer that is too long to be told. -/
def Unanswerable (d : Declaration) : Step → Prop
  | .addAll .. => False
  | .addOne _ r i => (d.kind = .method ∨ r = .typeParameter) ∧ ¬ (0 ≤ i ∧ i < d.count r) ∧
      Text.showInt? i = none
  | .remove i => d.doc ≠ none ∧ ¬ (0 ≤ i ∧ i < d.tags.length) ∧ Text.showInt? i = none

instance (d : Declaration) (s : Step) : Decidable (d.Unanswerable s) :=
  match s with
  | .addAll .. => inferInstanceAs (Decidable False)
  | .addOne _ r i => inferInstanceAs (Decidable ((d.kind = .method ∨ r = .typeParameter) ∧
      ¬ (0 ≤ i ∧ i < (d.count r : Int)) ∧ Text.showInt? i = none))
  | .remove i => inferInstanceAs (Decidable (d.doc ≠ none ∧
      ¬ (0 ≤ i ∧ i < (d.tags.length : Int)) ∧ Text.showInt? i = none))

variable {d d' : Declaration} {p : Policy} {e : Element} {b : Block} {r : Role} {i : Int}
  {s : Step} {ss : List Step} {plan : Plan}

theorem exists_unanswerable (hd : d.doc ≠ none) : ∃ i, d.Unanswerable (.remove i) := by
  refine ⟨((Nat.pow 10 Text.digitLimit + d.tags.length : Nat) : Int), hd, fun h => ?_, ?_⟩
  · exact Nat.not_lt.2 (Nat.le_add_left ..) (Int.ofNat_lt.1 h.2)
  · rw [Text.showInt?_eq_none_iff, Int.natAbs_natCast]
    exact Nat.le_add_right ..

theorem attempt_of_step (h : d.step s = .ok (plan, d')) : d.attempt s = (.ok plan, d') := by
  rw [attempt, h]

theorem attempt_of_error {f : PlanFault} (h : d.step s = .error f) :
    d.attempt s = (.error f, d) := by
  rw [attempt, h]

theorem run_cons : d.run (s :: ss) =
    ((d.attempt s).1 :: ((d.attempt s).2.run ss).1, ((d.attempt s).2.run ss).2) := rfl

theorem run_concat : (d.run (ss ++ [s])).2 = ((d.run ss).2.attempt s).2 := by
  induction ss generalizing d with
  | nil => rfl
  | cons t ss ih => exact ih

theorem refuse_of_message {c : Refusal} {m : Text} (h : c.message? = some m) :
    d.refuse c = .ok (.refused m, d) := by
  rw [refuse, h]

theorem refuse_of_none {c : Refusal} (h : c.message? = none) : d.refuse c = .error .unwritable := by
  rw [refuse, h]

theorem exists_refuse {c : Refusal} (h : c.message? ≠ none) :
    ∃ m, d.refuse c = .ok (.refused m, d) := by
  obtain ⟨m, hm⟩ := Option.ne_none_iff_exists'.1 h
  exact ⟨m, refuse_of_message hm⟩

theorem message?_noElement_eq_none {n : Text} :
    (Refusal.noElement r i n).message? = none ↔ Text.showInt? i = none := Option.map_eq_none_iff

theorem message?_noTag_eq_none {n : Nat} :
    (Refusal.noTag i n).message? = none ↔ Text.showInt? i = none := Option.map_eq_none_iff

@[simp] theorem generics_withGenerics : d.generics p.withGenerics = d.typeParameters := by
  simp [generics, Policy.withGenerics]

theorem Takes.elementAt (he : d.Takes p.withGenerics e) :
    d.elementAt e.role e.position p = .ok e := by
  have hnonneg : ∀ n : Nat, ¬ ((n : Int) < 0) := fun n => by omega
  cases he with
  | typeParameter hk hi =>
    rw [generics_withGenerics] at hi ⊢
    simp [Declaration.elementAt, Element.typeParameter, hi, hnonneg]
  | valueParameter hk hi =>
    rw [generics_withGenerics]
    simp [Declaration.elementAt, Element.valueParameter, hi, hnonneg]
  | returned hk hr => rfl
  | thrownException hk hi hx =>
    simp [Declaration.elementAt, Element.thrownException, hi, hnonneg, Policy.withGenerics]

theorem Takes.position_lt (he : d.Takes p.withGenerics e) : e.position < d.count e.role := by
  cases he with
  | typeParameter hk hi =>
    rw [generics_withGenerics] at hi
    exact (List.getElem?_eq_some_iff.1 hi).1
  | valueParameter hk hi =>
    have hlt := (List.getElem?_eq_some_iff.1 hi).1
    rw [parameterNames, List.length_map] at hlt
    exact hlt
  | returned hk hr => exact Nat.zero_lt_one
  | thrownException hk hi hx => exact (List.getElem?_eq_some_iff.1 hi).1

theorem Takes.known (he : d.Takes p e) : d.kind ∈ DeclarationKind.known := by
  cases he with
  | typeParameter hk hi => rcases hk with hk | hk <;> rw [hk] <;> decide
  | valueParameter hk hi => rw [hk]; decide
  | returned hk hr => rw [hk]; decide
  | thrownException hk hi hx => rw [hk]; decide

theorem Takes.role (he : d.Takes p e) : d.kind = .method ∨ e.role = .typeParameter := by
  cases he with
  | typeParameter hk hi => exact .inr rfl
  | valueParameter hk hi => exact .inl hk
  | returned hk hr => exact .inl hk
  | thrownException hk hi hx => exact .inl hk

theorem isMissing_of_known (hk : d.kind ∈ DeclarationKind.known) :
    d.isMissing e p = .ok (decide (∃ c ∈ d.missing (p.offering e.role),
      c.role = e.role ∧ c.position = e.position)) := by
  rw [isMissing, missingElements_of_known hk]
  refine congrArg Except.ok (Bool.eq_iff_iff.2 ?_)
  simp only [List.any_eq_true, Bool.and_eq_true, decide_eq_true_eq]
  rfl

theorem exists_isMissing (hk : d.kind ∈ DeclarationKind.known) (e : Element) (p : Policy) :
    ∃ missing, d.isMissing e p = .ok missing := ⟨_, isMissing_of_known hk⟩

theorem known_of_isMissing {m : Bool} (h : d.isMissing e p = .ok m) :
    d.kind ∈ DeclarationKind.known := by
  cases hk : d.kind with
  | unknown w => simp [isMissing, missingElements, checkKind, hk, Except.map] at h
  | _ => decide

theorem isMissing_of_mem (he : e ∈ d.missing p.withGenerics) : d.isMissing e p = .ok true := by
  obtain ⟨htakes, hdoc⟩ := mem_missing.1 he
  rw [isMissing_of_known htakes.known]
  refine congrArg Except.ok (decide_eq_true ?_)
  cases htakes with
  | typeParameter hk hi => exact ⟨_, he, rfl, rfl⟩
  | valueParameter hk hi => exact ⟨_, mem_missing.2 ⟨.valueParameter hk hi, hdoc⟩, rfl, rfl⟩
  | returned hk hr => exact ⟨_, mem_missing.2 ⟨.returned hk hr, hdoc⟩, rfl, rfl⟩
  | thrownException hk hi hx =>
    exact ⟨_, mem_missing.2 ⟨.thrownException hk hi hx, hdoc⟩, rfl, rfl⟩

theorem exists_elementAt (h0 : 0 ≤ i) (hi : i < d.count r) :
    ∃ e, d.elementAt r i p = .ok e ∧ e.role = r ∧ (e.position : Int) = i := by
  obtain ⟨n, rfl⟩ := Int.eq_ofNat_of_zero_le h0
  have hneg : ¬ (n : Int) < 0 := by omega
  have hlt : n < d.count r := by omega
  cases r with
  | typeParameter =>
    obtain ⟨s, hget⟩ : ∃ s, d.typeParameters[n]? = some s := ⟨_, List.getElem?_eq_getElem hlt⟩
    refine ⟨.typeParameter d.typeParameters n s, ?_, rfl, rfl⟩
    simp only [elementAt, Int.toNat_natCast, hget, Option.map_some, hneg, if_false]
  | valueParameter =>
    obtain ⟨x, hget⟩ : ∃ x, d.parameters[n]? = some x := ⟨_, List.getElem?_eq_getElem hlt⟩
    refine ⟨.valueParameter d.parameterNames d.typeParameters n x.name, ?_, rfl, rfl⟩
    simp only [elementAt, parameterNames, List.getElem?_map, Int.toNat_natCast, hget,
      Option.map_some, hneg, if_false]
  | thrownException =>
    obtain ⟨x, hget⟩ : ∃ x, d.thrown[n]? = some x := ⟨_, List.getElem?_eq_getElem hlt⟩
    refine ⟨.thrownException d.thrown p.qualifiedExceptionNames n x, ?_, rfl, rfl⟩
    simp only [elementAt, Int.toNat_natCast, hget, Option.map_some, hneg, if_false]
  | returned =>
    have hfirst : n = 0 := Nat.lt_one_iff.1 hlt
    exact ⟨.returned, rfl, rfl, by rw [hfirst]; rfl⟩

theorem Takes.generics (he : d.Takes p e) (hr : e.role = .typeParameter) :
    d.generics p = d.typeParameters := by
  cases he with
  | typeParameter hk hi =>
    unfold Declaration.generics at hi ⊢
    split at hi
    · simp at hi
    next h => rw [if_neg h]
  | _ => cases hr

/-- What takes a tag under one policy takes it under another, at the same place and documented by
the same tags, unless it is a type parameter that the other leaves out. -/
theorem Takes.transfer {q : Policy} (he : d.Takes p e)
    (hg : e.role = .typeParameter → d.generics p = d.generics q) :
    ∃ f, d.Takes q f ∧ f.role = e.role ∧ f.position = e.position ∧ d.documents f = d.documents e := by
  cases he with
  | typeParameter hk hi =>
    rw [hg rfl] at hi
    exact ⟨_, .typeParameter hk hi, rfl, rfl, rfl⟩
  | valueParameter hk hi => exact ⟨_, .valueParameter hk hi, rfl, rfl, rfl⟩
  | returned hk hr => exact ⟨_, .returned hk hr, rfl, rfl, rfl⟩
  | thrownException hk hi hx => exact ⟨_, .thrownException hk hi hx, rfl, rfl, rfl⟩

theorem exists_mem_missing {q : Policy} (he : e ∈ d.missing p)
    (hg : e.role = .typeParameter → d.generics p = d.generics q) :
    ∃ f ∈ d.missing q, f.role = e.role ∧ f.position = e.position := by
  obtain ⟨htakes, hdoc⟩ := mem_missing.1 he
  obtain ⟨f, hf, hrole, hpos, hsame⟩ := htakes.transfer hg
  exact ⟨f, mem_missing.2 ⟨hf, hsame.trans hdoc⟩, hrole, hpos⟩

theorem exists_mem_missing_withGenerics (he : e ∈ d.missing p) :
    ∃ f ∈ d.missing p.withGenerics, f.role = e.role ∧ f.position = e.position :=
  exists_mem_missing he fun hr =>
    ((mem_missing.1 he).1.generics hr).trans generics_withGenerics.symm

theorem mem_missing_of_isMissing (hk : d.kind ∈ DeclarationKind.known)
    (he : d.elementAt e.role e.position p = .ok e) (hm : d.isMissing e p = .ok true) :
    e ∈ d.missing p.withGenerics := by
  rw [isMissing_of_known hk] at hm
  obtain ⟨c, hc, hrole, hpos⟩ := of_decide_eq_true (Except.ok.inj hm)
  have hf : ∃ f ∈ d.missing p.withGenerics, f.role = c.role ∧ f.position = c.position := by
    unfold Policy.offering at hc
    split at hc
    · exact ⟨c, hc, rfl, rfl⟩
    · exact exists_mem_missing_withGenerics hc
  obtain ⟨f, hmem, hfr, hfp⟩ := hf
  -- the place tells the element
  have hat := (mem_missing.1 hmem).1.elementAt
  rw [hfr.trans hrole, hfp.trans hpos, he] at hat
  exact Except.ok.inj hat ▸ hmem

theorem planOne_of_takes {missing : Bool} (he : d.Takes p.withGenerics e)
    (hm : d.isMissing e p = .ok missing) : d.planOne p e.role e.position =
      .ok (if missing then (.inserted (.add e.role) [e.insertion d.tags d.doc.isNone]
          (d.insertElement e).2.tags, (d.insertElement e).2)
        else (.noted (some (.add e.role)) (.notMissing e.role e.position d.name) d.tags, d)) := by
  have hrole : ¬ (d.kind ≠ .method ∧ e.role ≠ .typeParameter) := fun ⟨h1, h2⟩ =>
    he.role.elim h1 h2
  have hlt : ¬ ((e.position : Int) < 0 ∨ (d.count e.role : Int) ≤ e.position) := by
    have := he.position_lt
    omega
  rw [planOne, if_neg hrole, if_neg hlt, he.elementAt]
  cases missing with
  | false => simp only [hm]; rfl
  | true => simp only [hm]; rfl

/-- A single request for an element that lacks its tag adds it. -/
theorem planOne_of_mem (he : e ∈ d.missing p.withGenerics) :
    d.planOne p e.role e.position = .ok (.inserted (.add e.role)
      [e.insertion d.tags d.doc.isNone] (d.insertElement e).2.tags, (d.insertElement e).2) :=
  planOne_of_takes (mem_missing.1 he).1 (isMissing_of_mem he)

theorem withTags_eq (d : Declaration) (ts : List Tag) : d.withTags ts =
    { d with doc := some { summary := (d.doc.map Block.summary).getD [], tags := ts } } := by
  cases hd : d.doc <;> simp [withTags, hd]

theorem adds_inserted (l : Label) : (Plan.inserted l [e.insertion d.tags d.doc.isNone]
    (d.insertElement e).2.tags).Adds (e.insertion d.tags d.doc.isNone) d (d.insertElement e).2 :=
  ⟨rfl, insertionIndex_le d.tags _ e.leading, rfl, withTags_eq d _⟩

theorem planOne_of_documents (he : d.Takes p.withGenerics e) (hdoc : d.documents e = true) :
    d.planOne p e.role e.position = .ok (.noted (some (.add e.role))
      (.notMissing e.role e.position d.name) d.tags, d) := by
  obtain ⟨missing, hm⟩ := exists_isMissing he.known e p
  cases missing with
  | false => exact planOne_of_takes he hm
  | true =>
    rw [(mem_missing.1 (mem_missing_of_isMissing he.known he.elementAt hm)).2] at hdoc
    cases hdoc

theorem insertElement_of_doc (hd : d.doc = some b) :
    (d.insertElement e).2 = d.withTags (e.settle d.tags) := by
  rw [insertElement, hd]
  rfl

theorem planOne_of_out (hkind : d.kind = .method ∨ r = .typeParameter)
    (hi : ¬ (0 ≤ i ∧ i < d.count r)) : d.planOne p r i = d.refuse (.noElement r i d.name) := by
  have hrole : ¬ (d.kind ≠ .method ∧ r ≠ .typeParameter) := fun ⟨h1, h2⟩ => hkind.elim h1 h2
  have hout : i < 0 ∨ (d.count r : Int) ≤ i := by omega
  rw [planOne, if_neg hrole, if_pos hout]

theorem planRemove_of_out (hd : d.doc = some b) (hi : ¬ (0 ≤ i ∧ i < d.tags.length)) :
    d.planRemove i = d.refuse (.noTag i b.tags.length) := by
  rw [tags_of_doc hd] at hi
  have hout : i < 0 ∨ (b.tags.length : Int) ≤ i := by omega
  simp only [planRemove, hd, if_pos hout]

theorem planOne_cases (hk : d.kind ∈ DeclarationKind.known)
    (ha : ¬ d.Unanswerable (.addOne p r i)) :
    (∃ plan, d.planOne p r i = .ok (plan, d) ∧ plan.Keeps d.tags) ∨
      ∃ e ∈ d.missing p.withGenerics, e.role = r ∧ (e.position : Int) = i := by
  by_cases hrole : d.kind ≠ .method ∧ r ≠ .typeParameter
  · left
    rw [planOne, if_pos hrole]
    split
    next w hkind => exact absurd (hkind ▸ hk) DeclarationKind.unknown_not_mem_known
    next => exact ⟨_, rfl, Plan.keeps_refused ..⟩
  · by_cases hi : 0 ≤ i ∧ i < d.count r
    · obtain ⟨e, he, rfl, rfl⟩ := exists_elementAt (p := p) hi.1 hi.2
      obtain ⟨missing, hm⟩ := exists_isMissing hk e p
      cases missing with
      | false =>
        have hin : ¬ ((e.position : Int) < 0 ∨ (d.count e.role : Int) ≤ e.position) := by omega
        left
        rw [planOne, if_neg hrole, if_neg hin, he]
        simp only [hm]
        exact ⟨_, rfl, Plan.keeps_noted ..⟩
      | true => exact .inr ⟨e, mem_missing_of_isMissing hk he hm, rfl, rfl⟩
    · left
      have hkind : d.kind = .method ∨ r = .typeParameter := by
        by_contra hno
        exact hrole (not_or.1 hno)
      have htext : Text.showInt? i ≠ none := fun h => ha ⟨hkind, hi, h⟩
      obtain ⟨m, hm⟩ := exists_refuse (d := d) (mt message?_noElement_eq_none.1 htext)
      rw [planOne_of_out hkind hi, hm]
      exact ⟨_, rfl, Plan.keeps_refused ..⟩

theorem exists_comment (hk : d.kind ∈ DeclarationKind.known) (name : Text) :
    ∃ l, Label.comment? d.kind name = some l := by
  cases hkind : d.kind with
  | unknown w => exact absurd (hkind ▸ hk) DeclarationKind.unknown_not_mem_known
  | method => exact ⟨_, rfl⟩
  | type => exact ⟨_, rfl⟩
  | field => exact ⟨_, rfl⟩
  | enumConstant => exact ⟨_, rfl⟩

theorem tags_of_doc_eq_none (hd : d.doc = none) : d.tags = [] := by simp [tags, hd]

theorem planAll_of_doc_eq_none (hk : d.kind ∈ DeclarationKind.known) (hd : d.doc = none)
    (indent : Text) : ∃ plan, d.planAll p indent = .ok (plan, d) ∧ plan.Keeps d.tags := by
  have hstub : ∃ plan, d.planStub p indent = .ok plan ∧ plan.Keeps [] := by
    obtain ⟨l, hl⟩ := exists_comment hk d.name
    unfold planStub
    rw [hl]
    split
    · exact ⟨_, rfl, Plan.keeps_noted ..⟩
    · exact ⟨_, rfl, Plan.keeps_commented ..⟩
  obtain ⟨plan, hplan, hkeep⟩ := hstub
  rw [planAll, hd, hplan, tags_of_doc_eq_none hd]
  exact ⟨plan, rfl, hkeep⟩

theorem planRemove_of_lt {i : Nat} (hi : i < d.tags.length) : d.planRemove i =
    .ok (.removed (d.tags.eraseIdx i), d.withTags (d.tags.eraseIdx i)) := by
  cases hd : d.doc with
  | none =>
    rw [tags_of_doc_eq_none hd] at hi
    exact absurd hi (Nat.not_lt_zero i)
  | some b =>
    rw [tags_of_doc hd] at hi ⊢
    have hin : ¬ ((i : Int) < 0 ∨ (b.tags.length : Int) ≤ i) := by omega
    simp only [planRemove, hd, if_neg hin, withTags, Option.getD_some, Int.toNat_natCast]

theorem planRemove_of_not_lt (hi : ¬ (0 ≤ i ∧ i < d.tags.length))
    (ha : ¬ d.Unanswerable (.remove i)) : ∃ m, d.planRemove i = .ok (.refused m, d) := by
  cases hd : d.doc with
  | none => exact ⟨_, by simp only [planRemove, hd]; rfl⟩
  | some b =>
    have htext : Text.showInt? i ≠ none := fun h => ha ⟨by simp [hd], hi, h⟩
    rw [planRemove_of_out hd hi]
    exact exists_refuse (mt message?_noTag_eq_none.1 htext)

theorem step_of_unanswerable (h : d.Unanswerable s) : d.step s = .error .unwritable := by
  cases s with
  | addAll p indent => exact absurd h id
  | addOne p r i =>
    obtain ⟨hkind, hi, htext⟩ := h
    rw [step, planOne_of_out hkind hi]
    exact refuse_of_none (message?_noElement_eq_none.2 htext)
  | remove i =>
    obtain ⟨hdoc, hi, htext⟩ := h
    obtain ⟨b, hd⟩ := Option.ne_none_iff_exists'.1 hdoc
    rw [step, planRemove_of_out hd hi]
    exact refuse_of_none (message?_noTag_eq_none.2 htext)

/-- What a step gives and what it leaves behind. -/
inductive Yields (d : Declaration) : Step → Plan → Declaration → Prop
  | idle {s : Step} {plan : Plan} (hs : ∀ p indent, s = .addAll p indent → d.doc = none)
      (hplan : plan.Keeps d.tags) : d.Yields s plan d
  | batch {p : Policy} {indent : Text} {b : Block} (hd : d.doc = some b) :
      d.Yields (.addAll p indent) (d.batchPlan p) (d.filled p)
  | single {p : Policy} {e : Element} (he : e ∈ d.missing p.withGenerics) :
      d.Yields (.addOne p e.role e.position) (.inserted (.add e.role)
        [e.insertion d.tags d.doc.isNone] (d.insertElement e).2.tags) (d.insertElement e).2
  | removal {i : Nat} (hi : i < d.tags.length) : d.Yields (.remove i)
      (.removed (d.tags.eraseIdx i)) (d.withTags (d.tags.eraseIdx i))

theorem exists_planRemove (ha : ¬ d.Unanswerable (.remove i)) :
    ∃ plan d', d.planRemove i = .ok (plan, d') ∧ d.Yields (.remove i) plan d' := by
  by_cases hi : 0 ≤ i ∧ i < d.tags.length
  · obtain ⟨n, rfl⟩ := Int.eq_ofNat_of_zero_le hi.1
    have hn : n < d.tags.length := by omega
    exact ⟨_, _, planRemove_of_lt hn, .removal hn⟩
  · obtain ⟨m, hm⟩ := planRemove_of_not_lt hi ha
    exact ⟨_, _, hm, .idle (fun _ _ h => by cases h) (Plan.keeps_refused ..)⟩

theorem exists_step (hk : d.kind ∈ DeclarationKind.known) (ha : ¬ d.Unanswerable s) :
    ∃ plan d', d.step s = .ok (plan, d') ∧ d.Yields s plan d' := by
  cases s with
  | addAll p indent =>
    cases hd : d.doc with
    | none =>
      obtain ⟨plan, hplan, hkeep⟩ := planAll_of_doc_eq_none (p := p) hk hd indent
      exact ⟨plan, d, hplan, .idle (fun _ _ _ => hd) hkeep⟩
    | some b => exact ⟨_, _, planAll_eq hk hd indent, .batch hd⟩
  | addOne p r i =>
    rcases planOne_cases hk ha with ⟨plan, hplan, hkeep⟩ | ⟨e, he, rfl, rfl⟩
    · exact ⟨plan, d, hplan, .idle (fun _ _ h => by cases h) hkeep⟩
    · exact ⟨_, _, planOne_of_mem he, .single he⟩
  | remove i => exact exists_planRemove ha

theorem planOne_of_unanswerable (h : d.Unanswerable (.addOne p r i)) :
    d.planOne p r i = .error .unwritable := step_of_unanswerable h

theorem exists_planOne (hk : d.kind ∈ DeclarationKind.known)
    (ha : ¬ d.Unanswerable (.addOne p r i)) : ∃ plan d', d.planOne p r i = .ok (plan, d') := by
  obtain ⟨plan, d', hstep, -⟩ := exists_step hk ha
  exact ⟨plan, d', hstep⟩

theorem step_eq_error_iff (hk : d.kind ∈ DeclarationKind.known) {f : PlanFault} :
    d.step s = .error f ↔ d.Unanswerable s ∧ f = .unwritable := by
  constructor
  · intro h
    by_cases ha : d.Unanswerable s
    · exact ⟨ha, Except.error.inj (h.symm.trans (step_of_unanswerable ha))⟩
    · obtain ⟨_, _, hstep, -⟩ := exists_step hk ha
      cases h.symm.trans hstep
  · rintro ⟨ha, rfl⟩
    exact step_of_unanswerable ha

theorem Yields.exists_doc (h : d.Yields s plan d') : ∃ doc, d' = { d with doc } := by
  cases h with
  | idle hs hplan => exact ⟨d.doc, rfl⟩
  | batch hd => exact ⟨_, rfl⟩
  | single he => exact ⟨_, rfl⟩
  | removal hi => exact ⟨_, rfl⟩

/-- The insertions of a plan make the tags that are left. -/
theorem Yields.replays (h : d.Yields s plan d') (hs : ∀ i, s ≠ .remove i) :
    Replays d.tags plan.insertions d'.tags := by
  cases h with
  | idle hidle hkeep =>
    rw [hkeep.insertions]
    exact .nil
  | batch hd =>
    rw [insertions_batchPlan]
    exact Element.replays_insertionsFor ..
  | single he => exact Element.replays_insertion
  | removal hi => exact absurd rfl (hs _)

theorem Yields.eq_of_errors (h : d.Yields s plan d') (he : plan.errors ≠ []) :
    plan = { errors := plan.errors } := by
  cases h with
  | idle hidle hkeep => exact hkeep.alone he
  | batch hd => exact absurd errors_batchPlan he
  | single _ => exact absurd rfl he
  | removal _ => exact absurd rfl he

theorem Yields.tags_eq (h : d.Yields s plan d') (he : plan.errors = []) : plan.tags = d'.tags := by
  cases h with
  | idle hidle hkeep => exact hkeep.tags he
  | batch hd => exact tags_batchPlan hd
  | single he => rfl
  | removal hi => rfl

theorem attempt_cases (hk : d.kind ∈ DeclarationKind.known) (s : Step) :
    (∃ plan, d.Yields s plan (d.attempt s).2) ∨ d.Unanswerable s ∧ (d.attempt s).2 = d := by
  by_cases ha : d.Unanswerable s
  · exact .inr ⟨ha, by rw [attempt_of_error (step_of_unanswerable ha)]⟩
  · obtain ⟨plan, d', hstep, hyields⟩ := exists_step hk ha
    exact .inl ⟨plan, by rwa [attempt_of_step hstep]⟩

theorem run_induction {I : Declaration → Prop} (hk : d.kind ∈ DeclarationKind.known) (hd : I d)
    (hstep : ∀ d s plan d', I d → d.Yields s plan d' → I d') (ss : List Step) :
    I (d.run ss).2 := by
  induction ss generalizing d with
  | nil => exact hd
  | cons s ss ih =>
    rcases attempt_cases hk s with ⟨plan, hyields⟩ | ⟨-, hsame⟩
    · have hkind : (d.attempt s).2.kind ∈ DeclarationKind.known := by
        obtain ⟨doc, hdoc⟩ := hyields.exists_doc
        rw [hdoc]
        exact hk
      exact ih hkind (hstep d s plan _ hd hyields)
    · rw [run_cons, hsame]
      exact ih hk hd

theorem exists_doc_run (hk : d.kind ∈ DeclarationKind.known) (ss : List Step) :
    ∃ doc, (d.run ss).2 = { d with doc } :=
  run_induction (I := fun d' => ∃ doc, d' = { d with doc }) hk ⟨d.doc, rfl⟩
    (fun _ _ _ _ ⟨_, h⟩ hyields => by
      subst h
      obtain ⟨doc, rfl⟩ := hyields.exists_doc
      exact ⟨doc, rfl⟩) ss

end Declaration

end DocComment

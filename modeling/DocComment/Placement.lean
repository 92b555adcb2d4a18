import DocComment.Element

/-! Where a new tag goes. `insertionIndex` is one past the last tag that has to stand before the new
one; `insertAll` places a tag for every undocumented element, each role from its last element to
its first, so that an element finds its later siblings in place and settles in front of them. -/

namespace DocComment

/-- One past the last member with `p`, or zero where there is none. -/
def pastLast {α : Type} (p : α → Bool) : List α → Nat
  | [] => 0
  | a :: l =>
    match pastLast p l with
    | 0 => if p a then 1 else 0
    | n + 1 => n + 2

section pastLast
variable {α : Type} {p : α → Bool}

theorem pastLast_cons (a : α) (l : List α) : pastLast p (a :: l) =
    match pastLast p l with
    | 0 => if p a then 1 else 0
    | n + 1 => n + 2 := rfl

theorem pastLast_le (l : List α) : pastLast p l ≤ l.length := by
  induction l with
  | nil => simp [pastLast]
  | cons a l ih =>
    rw [pastLast_cons]
    cases h : pastLast p l with
    | zero => by_cases ha : p a = true <;> simp [ha]
    | succ n => rw [h] at ih; simp only [List.length_cons]; omega

theorem pastLast_le_iff {l : List α} {k : Nat} :
    pastLast p l ≤ k ↔ ∀ i a, l[i]? = some a → p a = true → i < k := by
  induction l generalizing k with
  | nil => simp [pastLast]
  | cons b l ih =>
    have hsplit : (∀ i a, (b :: l)[i]? = some a → p a = true → i < k) ↔
        (p b = true → 0 < k) ∧ ∀ i a, l[i]? = some a → p a = true → i + 1 < k := by
      constructor
      · intro h
        exact ⟨fun hb => h 0 b rfl hb, fun i a hi ha => h (i + 1) a hi ha⟩
      · rintro ⟨h0, h1⟩ i a hi ha
        cases i with
        | zero => cases hi; exact h0 ha
        | succ i => exact h1 i a hi ha
    have hshift : (∀ i a, l[i]? = some a → p a = true → i + 1 < k) ↔
        pastLast p l = 0 ∨ pastLast p l + 1 ≤ k := by
      constructor
      · intro h
        rcases Nat.eq_zero_or_pos (pastLast p l) with h0 | h0
        · exact .inl h0
        · refine .inr ?_
          have := (ih (k := k - 1)).2 fun i a hi ha => by have := h i a hi ha; omega
          rcases k with _ | k
          · exfalso
            have hz := (ih (k := 0)).2 fun i a hi ha => by have := h i a hi ha; omega
            omega
          · omega
      · rintro (h0 | h1) i a hi ha
        · have := (ih (k := 0)).1 (by omega) i a hi ha; omega
        · have := (ih (k := k - 1)).1 (by omega) i a hi ha; omega
    rw [hsplit, hshift, pastLast_cons]
    cases pastLast p l with
    | zero => by_cases hb : p b = true <;> simp [hb]; omega
    | succ n =>
      simp only [Nat.add_eq_zero_iff, Nat.succ_ne_self, and_false, false_or]
      omega

theorem eq_false_of_mem_drop_pastLast {a : α} {l : List α} (h : a ∈ l.drop (pastLast p l)) :
    p a = false := by
  obtain ⟨i, hi⟩ := List.mem_iff_getElem?.1 h
  rw [List.getElem?_drop] at hi
  cases ha : p a with
  | false => rfl
  | true =>
    have hlt := pastLast_le_iff.1 (Nat.le_refl (pastLast p l)) _ a hi ha
    omega

end pastLast

/-- The tags that must stand before a new tag of kind `new`: those of a lower rank, and those of its
own kind that document a leading name. -/
def anchors (new : TagKind) (leading : Option (List Text)) (t : Tag) : Bool :=
  t.kind.rank < new.rank ||
    (new.canonical = t.kind.canonical &&
      match leading, t.argument with
      | some names, some a => names.contains a
      | _, _ => false)

theorem rank_le_of_anchors {new : TagKind} {leading : Option (List Text)} {t : Tag}
    (h : anchors new leading t = true) : t.kind.rank ≤ new.rank := by
  unfold anchors at h
  rw [Bool.or_eq_true, Bool.and_eq_true, decide_eq_true_eq, decide_eq_true_eq] at h
  rcases h with hlt | ⟨hsame, -⟩
  · exact Nat.le_of_lt hlt
  · exact Nat.le_of_eq (TagKind.rank_inj.2 hsame).symm

theorem rank_le_of_anchors_eq_false {new : TagKind} {leading : Option (List Text)} {t : Tag}
    (h : anchors new leading t = false) : new.rank ≤ t.kind.rank := by
  unfold anchors at h
  rw [Bool.or_eq_false_iff, decide_eq_false_iff_not] at h
  exact Nat.le_of_not_lt h.1

def insertionIndex (tags : List Tag) (new : TagKind) (leading : Option (List Text)) : Nat :=
  pastLast (anchors new leading) tags

theorem insertionIndex_le (tags : List Tag) (new : TagKind) (leading : Option (List Text)) :
    insertionIndex tags new leading ≤ tags.length := pastLast_le tags

/-- A tag for an element, with an empty text where its description goes. In a block that is made
for it a second empty text keeps the description apart from the line break. -/
def placeholderTag (r : Role) (name typeText : Text) (fresh : Bool) : Tag :=
  let subject := match r with
    | .valueParameter => [Fragment.identifier name]
    | .typeParameter => [Fragment.text name.angled]
    | .returned => []
    | .thrownException => [Fragment.identifier (if typeText = [] then name else typeText)]
  { kind := r.tagKind
    fragments := subject ++ Fragment.text [] :: (if fresh then [Fragment.text []] else []) }

def Element.tag (e : Element) (fresh : Bool) : Tag :=
  placeholderTag e.role e.name e.typeText fresh

structure Insertion where
  index : Nat
  tag : Tag
  deriving DecidableEq, Inhabited

def Element.insertion (e : Element) (tags : List Tag) (fresh : Bool) : Insertion :=
  { index := insertionIndex tags (e.tag fresh).kind e.leading, tag := e.tag fresh }

def Insertion.apply (i : Insertion) (tags : List Tag) : List Tag := tags.insertIdx i.index i.tag

def Insertion.applyAll (is : List Insertion) (tags : List Tag) : List Tag :=
  is.foldl (fun ts i => i.apply ts) tags

def insertionsFor (tags : List Tag) : List Element → List Insertion
  | [] => []
  | e :: es =>
    let i := e.insertion tags false
    i :: insertionsFor (i.apply tags) es

def Role.batchOrder : List Role := [.typeParameter, .valueParameter, .returned, .thrownException]

/-- Role after role, each from its last element to its first. -/
def batchOf (es : List Element) : List Element :=
  Role.batchOrder.flatMap fun r => (es.filter (·.role = r)).reverse

namespace Declaration

/-- The declaration with other tags in its doc comment, which is made where there is none. -/
def withTags (d : Declaration) (tags : List Tag) : Declaration :=
  { d with doc := some { d.doc.getD {} with tags } }

def insertElement (d : Declaration) (e : Element) : Insertion × Declaration :=
  let i := e.insertion d.tags d.doc.isNone
  (i, d.withTags (i.apply d.tags))

def batchInsertions (d : Declaration) (p : Policy) : List Insertion :=
  insertionsFor d.tags (batchOf (d.missing p))

def insertAll (d : Declaration) (p : Policy) : Except Defect (List Insertion × Declaration) :=
  match d.doc with
  | none => .error (.noBlock d.name)
  | some _ =>
    match d.checkKind with
    | .error e => .error e
    | .ok () =>
      let is := d.batchInsertions p
      .ok (is, d.withTags (Insertion.applyAll is d.tags))

end Declaration

end DocComment

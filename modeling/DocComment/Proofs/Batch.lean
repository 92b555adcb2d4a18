import DocComment.Plan
import DocComment.Proofs.Settling
import DocComment.Proofs.Taggable

/-! The batch as a fold: the tags of the elements settle one after the other (`insertAll_eq`), and
nothing but the tags of the doc comment changes. -/

namespace DocComment

/-- Insertions in turn, each at an index that is in bounds by then, make the last tags of the
first. -/
inductive Replays : List Tag → List Insertion → List Tag → Prop
  | nil {ts : List Tag} : Replays ts [] ts
  | cons {i : Insertion} {is : List Insertion} {ts us : List Tag} (hi : i.index ≤ ts.length)
      (his : Replays (ts.insertIdx i.index i.tag) is us) : Replays ts (i :: is) us

variable {d : Declaration} {p : Policy} {e : Element} {b : Block} {ts : List Tag} {fresh : Bool}

namespace Element

/-- The element's tag has to stand after `t`. -/
def follows (e : Element) (t : Tag) : Bool := anchors e.role.tagKind e.leading t

theorem follows_iff {t : Tag} : e.follows t = true ↔ t.kind.rank < e.role.tagKind.rank ∨
    (e.role.tagKind.canonical = t.kind.canonical ∧
      ∃ names a, e.leading = some names ∧ t.argument = some a ∧ a ∈ names) := by
  unfold follows anchors
  cases e.leading with
  | none => simp
  | some names => cases t.argument <;> simp

def settle (e : Element) (ts : List Tag) : List Tag := DocComment.settle e.follows (e.tag false) ts

theorem apply_insertion : (e.insertion ts fresh).apply ts =
    DocComment.settle e.follows (e.tag fresh) ts := rfl

def settleAll (es : List Element) (ts : List Tag) : List Tag := es.foldl (fun ts e => e.settle ts) ts

theorem settleAll_induction {I : List Tag → Prop} {es : List Element} (h : I ts)
    (hstep : ∀ e ∈ es, ∀ us, I us → I (e.settle us)) : I (settleAll es ts) := by
  induction es generalizing ts with
  | nil => exact h
  | cons e es ih =>
    exact ih (hstep e List.mem_cons_self ts h) fun f hf => hstep f (List.mem_cons_of_mem _ hf)

theorem sublist_settleAll {es : List Element} : ts.Sublist (settleAll es ts) := by
  induction es generalizing ts with
  | nil => exact List.Sublist.refl _
  | cons e es ih => exact sublist_settle.trans ih

theorem mem_settleAll {es : List Element} {t : Tag} :
    t ∈ settleAll es ts ↔ (∃ e ∈ es, t = e.tag false) ∨ t ∈ ts := by
  induction es generalizing ts with
  | nil => simp [settleAll]
  | cons e es ih =>
    rw [settleAll, List.foldl_cons, ← settleAll, ih, settle, mem_settle]
    simp only [List.mem_cons, exists_eq_or_imp]
    rw [or_assoc, or_left_comm]

theorem applyAll_insertionsFor (es : List Element) (ts : List Tag) :
    Insertion.applyAll (insertionsFor ts es) ts = settleAll es ts := by
  induction es generalizing ts with
  | nil => rfl
  | cons e es ih => exact ih _

theorem replays_insertion : Replays ts [e.insertion ts fresh]
    (DocComment.settle e.follows (e.tag fresh) ts) :=
  .cons (insertionIndex_le ts _ e.leading) .nil

theorem replays_insertionsFor (es : List Element) (ts : List Tag) :
    Replays ts (insertionsFor ts es) (settleAll es ts) := by
  induction es generalizing ts with
  | nil => exact .nil
  | cons e es ih => exact .cons (insertionIndex_le ts _ e.leading) (ih _)

theorem map_tag_insertionsFor (es : List Element) (ts : List Tag) :
    (insertionsFor ts es).map Insertion.tag = es.map (·.tag false) := by
  induction es generalizing ts with
  | nil => rfl
  | cons e es ih =>
    rw [insertionsFor, List.map_cons, ih, List.map_cons]
    rfl

theorem length_insertionsFor (es : List Element) (ts : List Tag) :
    (insertionsFor ts es).length = es.length := by
  simpa using congrArg List.length (map_tag_insertionsFor es ts)

end Element

theorem batchOf_perm (es : List Element) : (batchOf es).Perm es := by
  rw [List.perm_iff_count]
  intro e
  have hne : ∀ r, e.role ≠ r → (es.filter (·.role = r)).count e = 0 := fun r hr =>
    List.count_eq_zero.2 fun hm => hr (by simpa using (List.mem_filter.1 hm).2)
  have heq : (es.filter (·.role = e.role)).count e = es.count e := List.count_filter (by simp)
  simp only [batchOf, Role.batchOrder, List.flatMap_cons, List.flatMap_nil, List.append_nil,
    List.count_append, List.count_reverse]
  cases hr : e.role <;> rw [hr] at heq hne <;> simp [heq, hne]

theorem batchOf_singleton : batchOf [e] = [e] := List.perm_singleton.1 (batchOf_perm [e])

theorem DeclarationKind.unknown_not_mem_known {w : Text} : unknown w ∉ known := by simp [known]

namespace Declaration

@[simp] theorem tags_withTags : (d.withTags ts).tags = ts := rfl

theorem tags_of_doc (hd : d.doc = some b) : d.tags = b.tags := by simp [tags, hd]

/-- The doc comment, or an empty one where there is none. -/
def block (d : Declaration) : Block := d.doc.getD {}

theorem tags_block : d.block.tags = d.tags := by
  cases hd : d.doc <;> simp [block, tags, hd]

theorem block_withTags : (d.withTags ts).block = { d.block with tags := ts } := rfl

theorem withTags_self (hd : d.doc = some b) : d.withTags d.tags = d := by
  cases d
  cases hd
  rfl

theorem doc_withTags (hd : d.doc = some b) : (d.withTags ts).doc = some { b with tags := ts } := by
  simp [withTags, hd]

theorem missing_withTags : (d.withTags ts).missing p =
    (d.taggable p).filter fun e => !ts.any e.isDocumentedBy := rfl

theorem checkKind_of_known (hk : d.kind ∈ DeclarationKind.known) : d.checkKind = .ok () := by
  unfold checkKind
  split
  next w hkind => exact absurd (hkind ▸ hk) DeclarationKind.unknown_not_mem_known
  next => rfl

theorem missingElements_of_known (hk : d.kind ∈ DeclarationKind.known) :
    d.missingElements p = .ok (d.missing p) := by
  rw [missingElements, checkKind_of_known hk]

theorem missingElements_eq_ok {es : List Element} :
    d.missingElements p = .ok es ↔ d.kind ∈ DeclarationKind.known ∧ d.missing p = es := by
  cases hk : d.kind <;> simp [missingElements, checkKind, hk, DeclarationKind.known]

def filled (d : Declaration) (p : Policy) : Declaration :=
  d.withTags (Element.settleAll (batchOf (d.missing p)) d.tags)

theorem tags_filled : (d.filled p).tags = Insertion.applyAll (d.batchInsertions p) d.tags := by
  rw [batchInsertions, Element.applyAll_insertionsFor]
  rfl

theorem insertAll_eq (hk : d.kind ∈ DeclarationKind.known) (hd : d.doc = some b) :
    d.insertAll p = .ok (d.batchInsertions p, d.filled p) := by
  simp only [insertAll, hd, checkKind_of_known hk, batchInsertions, filled,
    Element.applyAll_insertionsFor]

theorem filled_of_missing_eq_nil (hd : d.doc = some b) (hm : d.missing p = []) :
    d.filled p = d := by
  rw [filled, hm]
  exact withTags_self hd

theorem length_batchInsertions : (d.batchInsertions p).length = (d.missing p).length := by
  rw [batchInsertions, Element.length_insertionsFor, (batchOf_perm _).length_eq]

/-- The plan of a batch on a doc comment. -/
def batchPlan (d : Declaration) (p : Policy) : Plan :=
  if d.missing p = [] then .noted (some .addAll) (.nothingMissing d.name) d.tags
  else .inserted .addAll (d.batchInsertions p) (d.filled p).tags

theorem batchPlan_of_nil (hm : d.missing p = []) :
    d.batchPlan p = .noted (some .addAll) (.nothingMissing d.name) d.tags := if_pos hm

theorem batchPlan_of_ne_nil (hm : d.missing p ≠ []) :
    d.batchPlan p = .inserted .addAll (d.batchInsertions p) (d.filled p).tags := if_neg hm

theorem batchInsertions_of_nil (hm : d.missing p = []) : d.batchInsertions p = [] := by
  rw [batchInsertions, hm]
  rfl

theorem insertions_batchPlan : (d.batchPlan p).insertions = d.batchInsertions p := by
  by_cases hm : d.missing p = []
  · rw [batchPlan_of_nil hm, batchInsertions_of_nil hm]
    rfl
  · rw [batchPlan_of_ne_nil hm]
    rfl

theorem errors_batchPlan : (d.batchPlan p).errors = [] := by
  unfold batchPlan
  split <;> rfl

theorem tags_batchPlan (hd : d.doc = some b) : (d.batchPlan p).tags = (d.filled p).tags := by
  by_cases hm : d.missing p = []
  · rw [batchPlan_of_nil hm, filled_of_missing_eq_nil hd hm]
    rfl
  · rw [batchPlan_of_ne_nil hm]
    rfl

/-- A plan for the batch leaves the filled declaration behind, also where nothing is missing. -/
theorem planAll_eq (hk : d.kind ∈ DeclarationKind.known) (hd : d.doc = some b) (indent : Text) :
    d.planAll p indent = .ok (d.batchPlan p, d.filled p) := by
  simp only [planAll, hd, missingElements_of_known hk]
  cases hm : d.missing p with
  | nil => simp [batchPlan, hm, filled_of_missing_eq_nil hd hm]
  | cons e es => simp [batchPlan, hm, insertAll_eq hk hd]

end Declaration

end DocComment

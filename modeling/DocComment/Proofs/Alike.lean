import DocComment.Proofs.Session
import Mathlib.Data.List.Forall2

/-! Tags that are alike. Lists of tags are alike where they agree, place by place, in the kind, of
which `@exception` and `@throws` are one, and in the argument. No plan tells such lists apart: they
document the same elements, a new tag has the same place in both (`Alike.insertionIndex_eq`), and
they are still alike with that tag among them (`Alike.apply`). -/

namespace DocComment

def Alike (ts us : List Tag) : Prop := ts.map Tag.key = us.map Tag.key

instance (ts us : List Tag) : Decidable (Alike ts us) :=
  inferInstanceAs (Decidable (ts.map Tag.key = us.map Tag.key))

variable {t u : Tag} {ts us : List Tag} {e : Element} {fresh : Bool}

theorem alike_iff_forall₂ : Alike ts us ↔ List.Forall₂ (fun t u => t.key = u.key) ts us := by
  rw [Alike, ← List.forall₂_eq_eq_eq, List.forall₂_map_left_iff, List.forall₂_map_right_iff]

theorem anchors_congr {new : TagKind} {leading : Option (List Text)} (h : t.key = u.key) :
    anchors new leading t = anchors new leading u := by
  obtain ⟨hkind, harg⟩ := Prod.mk.inj h
  have hrank : t.kind.rank = u.kind.rank := TagKind.rank_inj.2 hkind
  unfold anchors
  rw [hrank, hkind, harg]

namespace Alike

theorem any_eq {p : Tag → Bool} (hp : ∀ t u, t.key = u.key → p t = p u) (h : Alike ts us) :
    ts.any p = us.any p := by
  have hall := alike_iff_forall₂.1 h
  clear h
  induction hall with
  | nil => rfl
  | cons hkey _ ih => rw [List.any_cons, List.any_cons, hp _ _ hkey, ih]

theorem pastLast_eq {p : Tag → Bool} (hp : ∀ t u, t.key = u.key → p t = p u) (h : Alike ts us) :
    pastLast p ts = pastLast p us := by
  have hall := alike_iff_forall₂.1 h
  clear h
  induction hall with
  | nil => rfl
  | cons hkey _ ih => rw [pastLast_cons, pastLast_cons, hp _ _ hkey, ih]

theorem insertionIndex_eq (h : Alike ts us) (new : TagKind) (leading : Option (List Text)) :
    insertionIndex ts new leading = insertionIndex us new leading :=
  h.pastLast_eq fun _ _ => anchors_congr

theorem insertion_eq (h : Alike ts us) : e.insertion ts fresh = e.insertion us fresh := by
  rw [Element.insertion, Element.insertion, h.insertionIndex_eq]

theorem apply (h : Alike ts us) (i : Insertion) : Alike (i.apply ts) (i.apply us) := by
  unfold Alike Insertion.apply
  rw [List.map_insertIdx, List.map_insertIdx, h]

theorem applyAll (h : Alike ts us) (is : List Insertion) :
    Alike (Insertion.applyAll is ts) (Insertion.applyAll is us) := by
  induction is generalizing ts us with
  | nil => exact h
  | cons i is ih => exact ih (h.apply i)

theorem insertionsFor_eq (h : Alike ts us) (es : List Element) :
    insertionsFor ts es = insertionsFor us es := by
  induction es generalizing ts us with
  | nil => rfl
  | cons e es ih =>
    rw [insertionsFor, insertionsFor, h.insertion_eq, ih (h.apply _)]

end Alike

namespace Declaration

variable {d d' : Declaration} {b b' : Block} {p : Policy}

theorem alike_tags (hd : d.doc = some b) (h : Alike b.tags b'.tags) :
    Alike d.tags (tags { d with doc := some b' }) := by
  rw [tags_of_doc hd]
  exact h

theorem missing_congr (hd : d.doc = some b) (h : Alike b.tags b'.tags) :
    missing { d with doc := some b' } p = d.missing p := by
  apply List.filter_congr
  intro e _
  rw [documents, documents, (alike_tags hd h).any_eq fun _ _ => Element.isDocumentedBy_congr]

theorem missingElements_congr (hd : d.doc = some b) (h : Alike b.tags b'.tags) :
    missingElements { d with doc := some b' } p = d.missingElements p := by
  rw [missingElements, missingElements, missing_congr hd h]
  rfl

theorem insertAll_congr (hk : d.kind ∈ DeclarationKind.known) (hd : d.doc = some b)
    (h : Alike b.tags b'.tags) : ∃ is l l', d.insertAll p = .ok (is, l) ∧
      insertAll { d with doc := some b' } p = .ok (is, l') ∧ Alike l.tags l'.tags := by
  have hsame : batchInsertions { d with doc := some b' } p = d.batchInsertions p := by
    rw [batchInsertions, batchInsertions, missing_congr hd h, (alike_tags hd h).insertionsFor_eq]
  have hinsert := insertAll_eq (d := { d with doc := some b' }) (p := p) hk rfl
  rw [hsame] at hinsert
  refine ⟨_, _, _, insertAll_eq hk hd, hinsert, ?_⟩
  rw [tags_filled, tags_filled, hsame]
  exact (alike_tags hd h).applyAll _

theorem planOne_congr (hd : d.doc = some b) (h : Alike b.tags b'.tags) (r : Role) (i : Int) :
    (planOne { d with doc := some b' } p r i).map (·.1.insertions) =
      (d.planOne p r i).map (·.1.insertions) := by
  have hcount : count { d with doc := some b' } r = d.count r := rfl
  have hat : elementAt { d with doc := some b' } r i p = d.elementAt r i p := rfl
  have hmissing : ∀ e, isMissing { d with doc := some b' } e p = d.isMissing e p := by
    intro e
    rw [isMissing, isMissing, missingElements_congr hd h]
  have hinsert : ∀ e, (insertElement { d with doc := some b' } e).1 = (d.insertElement e).1 := by
    intro e
    rw [insertElement, insertElement, tags_of_doc hd, hd]
    exact h.insertion_eq.symm
  unfold planOne
  simp only [hcount, hat, hmissing]
  split
  · cases d.kind <;> rfl
  · split
    · rw [refuse, refuse]
      cases (Refusal.noElement r i d.name).message? <;> rfl
    · cases d.elementAt r i p with
      | error f => rfl
      | ok e =>
        cases hm : d.isMissing e p with
        | error f => simp only [hm, Except.map]
        | ok missing =>
          cases missing with
          | false =>
            simp only [hm]
            rfl
          | true =>
            simp only [hm]
            exact congrArg (fun i => Except.ok [i]) (hinsert e)

/-- Two declarations that differ in their doc comments only, and have alike tags there, lack tags
for the same elements. The batch places the same tags at the same indices, and so does a single
request for any element, unless it is a refusal that neither can tell. -/
theorem plans_of_alike (d d' : Declaration) (b b' : Block) (p : Policy)
    (hk : d.kind ∈ DeclarationKind.known) (hd : d.doc = some b)
    (hd' : d' = { d with doc := some b' }) (h : Alike b.tags b'.tags) :
    (∃ es, d.missingElements p = .ok es ∧ d'.missingElements p = .ok es) ∧
    (∃ is l l', d.insertAll p = .ok (is, l) ∧ d'.insertAll p = .ok (is, l') ∧
      Alike l.tags l'.tags) ∧
    ∀ r i, (d.Unanswerable (.addOne p r i) ∧ d.planOne p r i = .error .unwritable ∧
        d'.planOne p r i = .error .unwritable) ∨
      ∃ plan plan' l l', d.planOne p r i = .ok (plan, l) ∧ d'.planOne p r i = .ok (plan', l') ∧
        plan'.insertions = plan.insertions := by
  subst hd'
  refine ⟨⟨d.missing p, missingElements_of_known hk, ?_⟩, insertAll_congr hk hd h, fun r i => ?_⟩
  · rw [missingElements_congr hd h, missingElements_of_known hk]
  · by_cases ha : d.Unanswerable (.addOne p r i)
    · exact .inl ⟨ha, planOne_of_unanswerable ha, planOne_of_unanswerable ha⟩
    · obtain ⟨plan, l, hplan⟩ := exists_planOne hk ha
      obtain ⟨plan', l', hplan'⟩ := exists_planOne (d := { d with doc := some b' }) hk ha
      have hinsertions := planOne_congr (p := p) hd h r i
      rw [hplan, hplan'] at hinsertions
      exact .inr ⟨plan, plan', l, l', hplan, hplan', Except.ok.inj hinsertions⟩

def terse : Block :=
  { tags := [
    { kind := .see },
    { kind := .param, fragments := [.text "<K>"] },
    { kind := .throws, fragments := [.identifier "IOException"] },
    { kind := .other, label := "note" }] }

/-- Descriptions, a type parameter in pieces, and another name for each of the last two tags. -/
def wordy : Block :=
  { summary := "Looks a key up."
    tags := [
      { kind := .see, fragments := [.text "Map"] },
      { kind := .param, fragments := [.text "<", .identifier "K", .text ">", .text "the keys"] },
      { kind := .exception, fragments := [.identifier "java.io.IOException", .text "if lost"] },
      { kind := .other, label := "apiNote", fragments := [.text "Slow."] }] }

def keyed (b : Block) : Declaration :=
  { kind := .method
    parameters := [⟨"key", []⟩]
    typeParameters := ["K", "V"]
    thrown := [⟨"IOException", some []⟩, ⟨"Lost", some []⟩]
    doc := some b }

theorem plans_of_terse_wordy : Alike terse.tags wordy.tags ∧ ∃ is l l',
    (keyed terse).insertAll {} = .ok (is, l) ∧ (keyed wordy).insertAll {} = .ok (is, l') ∧
      is.map Insertion.index = [2, 3, 5] := by
  have halike : Alike terse.tags wordy.tags := by decide
  obtain ⟨-, ⟨is, l, l', hi, hi', -⟩, -⟩ :=
    plans_of_alike (keyed terse) (keyed wordy) terse wordy {} (by decide) rfl rfl halike
  exact ⟨halike, is, l, l', hi, hi', by cases hi; decide⟩

end Declaration

end DocComment

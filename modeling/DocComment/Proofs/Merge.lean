import DocComment.Proofs.Precedence
import Mathlib.Data.Nat.Find

/-! The batch as a merge. Between which of the old tags a new one comes is told by the old tags
alone: its gap. The batch is one pass over the gaps (`insertAll_merges`). -/

namespace DocComment

namespace Element

/-- `t` has to stand before the tag of `e`: it ranks lower, or it is of the same kind and documents
a leading name. -/
def AnchoredBy (e : Element) (t : Tag) : Prop :=
  t.kind.rank < (e.tag false).kind.rank ∨
    (t.kind.canonical = (e.tag false).kind.canonical ∧
      ∃ names ∈ e.leading, ∃ a ∈ t.argument, a ∈ names)

theorem anchoredBy_iff {e : Element} {t : Tag} : e.AnchoredBy t ↔ e.follows t = true := by
  rw [follows_iff, AnchoredBy]
  refine or_congr Iff.rfl (and_congr eq_comm ⟨?_, ?_⟩)
  · rintro ⟨names, hn, a, ha, hm⟩
    exact ⟨names, a, hn, ha, hm⟩
  · rintro ⟨names, a, hn, ha, hm⟩
    exact ⟨names, hn, a, ha, hm⟩

instance (e : Element) : DecidablePred e.AnchoredBy := fun _ => decidable_of_iff' _ anchoredBy_iff

/-- One past the greatest index of a tag that anchors `e`, or zero where there is none. -/
def gap (e : Element) (ts : List Tag) : Nat :=
  Nat.findGreatest (fun g => ∃ h : g - 1 < ts.length, e.AnchoredBy ts[g - 1]) ts.length

end Element

/-- From gap to gap the tags of the elements that belong there, each gap followed by the old tag
after it. -/
def mergeByGap (ts : List Tag) (es : List Element) : List Tag :=
  (List.range (ts.length + 1)).flatMap fun g =>
    (es.filter (·.gap ts = g)).map (·.tag false) ++ ts[g]?.toList

section gap
variable {e f : Element} {t u : Tag} {ts : List Tag} {es fs : List Element}

theorem gap_eq_pastLast : e.gap ts = pastLast e.follows ts := by
  have hbound := pastLast_le_iff.1 (Nat.le_refl (pastLast e.follows ts))
  refine Nat.findGreatest_eq_iff.2 ⟨pastLast_le ts, fun hne => ?_, fun n hlt _ => ?_⟩
  · -- otherwise a lower bound would do
    by_contra hnone
    have hle : pastLast e.follows ts ≤ pastLast e.follows ts - 1 := by
      rw [pastLast_le_iff]
      intro i t hi ht
      have hlt := hbound i t hi ht
      by_contra hge
      obtain rfl : i = pastLast e.follows ts - 1 := by omega
      obtain ⟨h, rfl⟩ := List.getElem?_eq_some_iff.1 hi
      exact hnone ⟨h, Element.anchoredBy_iff.2 ht⟩
    omega
  · rintro ⟨h, hanchor⟩
    have := hbound (n - 1) _ (List.getElem?_eq_getElem h) (Element.anchoredBy_iff.1 hanchor)
    omega

theorem gap_nil : e.gap [] = 0 := rfl

theorem gap_cons_of_exists (h : ∃ u ∈ t :: ts, e.follows u = true) :
    e.gap (t :: ts) = e.gap ts + 1 := by
  rw [gap_eq_pastLast, gap_eq_pastLast, pastLast_cons_of_exists h]

theorem gap_eq_zero_iff : e.gap ts = 0 ↔ ∀ u ∈ ts, e.follows u = false := by
  rw [gap_eq_pastLast, pastLast_eq_zero_iff]

theorem mergeByGap_nil : mergeByGap [] es = es.map (·.tag false) := by
  simp [mergeByGap, gap_nil]

theorem mergeByGap_cons : mergeByGap (t :: ts) es =
    (es.filter (·.gap (t :: ts) = 0)).map (·.tag false) ++
      t :: mergeByGap ts (es.filter (·.gap (t :: ts) ≠ 0)) := by
  have hshift : ∀ g, es.filter (·.gap (t :: ts) = g + 1) =
      (es.filter (·.gap (t :: ts) ≠ 0)).filter (·.gap ts = g) := by
    intro g
    rw [List.filter_filter]
    apply List.filter_congr
    intro e _
    rcases exists_or_forall_not e.follows (t :: ts) with h | h
    · simp [gap_cons_of_exists h]
    · simp [gap_eq_zero_iff.2 h]
  rw [mergeByGap, List.length_cons, List.range_succ_eq_map, List.flatMap_cons, List.flatMap_map]
  simp [mergeByGap, hshift]

theorem mem_mergeByGap : u ∈ mergeByGap ts es ↔ (∃ e ∈ es, u = e.tag false) ∨ u ∈ ts := by
  induction ts generalizing es with
  | nil => simp [mergeByGap_nil, eq_comm]
  | cons t ts ih =>
    rw [mergeByGap_cons, List.mem_append, List.mem_cons, ih, List.mem_cons]
    simp only [List.mem_map, List.mem_filter, decide_eq_true_eq]
    constructor
    · rintro (⟨e, he, rfl⟩ | rfl | ⟨e, he, rfl⟩ | hu)
      · exact .inl ⟨e, he.1, rfl⟩
      · exact .inr (.inl rfl)
      · exact .inl ⟨e, he.1, rfl⟩
      · exact .inr (.inr hu)
    · rintro (⟨e, he, rfl⟩ | rfl | hu)
      · by_cases h0 : e.gap (t :: ts) = 0
        · exact .inl ⟨e, ⟨he, h0⟩, rfl⟩
        · exact .inr (.inr (.inl ⟨e, ⟨he, h0⟩, rfl⟩))
      · exact .inr (.inl rfl)
      · exact .inr (.inr (.inr hu))

theorem mergeByGap_nil_right : mergeByGap ts [] = ts := by
  induction ts with
  | nil => exact mergeByGap_nil
  | cons t ts ih =>
    rw [mergeByGap_cons]
    simp [ih]

theorem mergeByGap_congr
    (h : es.map (fun e => (e.gap ts, e.tag false)) = fs.map fun e => (e.gap ts, e.tag false)) :
    mergeByGap ts es = mergeByGap ts fs := by
  have hgap : ∀ (es : List Element) g, (es.filter (·.gap ts = g)).map (·.tag false) =
      ((es.map fun e => (e.gap ts, e.tag false)).filter (·.1 = g)).map (·.2) := by
    intro es g
    rw [List.filter_map, List.map_map]
    rfl
  simp only [mergeByGap, hgap, h]

theorem filter_mergeByGap {keep : Tag → Bool} (hts : ∀ t ∈ ts, keep t = true) :
    (mergeByGap ts es).filter keep = mergeByGap ts (es.filter fun e => keep (e.tag false)) := by
  have hold : ∀ g : Nat, ts[g]?.toList.filter keep = ts[g]?.toList := by
    intro g
    exact List.filter_eq_self.2 fun t ht => hts t (List.mem_of_getElem? (Option.mem_toList.1 ht))
  have hnew : ∀ g, ((es.filter (·.gap ts = g)).map (·.tag false)).filter keep =
      ((es.filter fun e => keep (e.tag false)).filter (·.gap ts = g)).map (·.tag false) := by
    intro g
    rw [List.filter_map, List.filter_filter, List.filter_filter]
    simp only [Bool.and_comm, Function.comp_apply]
  simp only [mergeByGap, List.filter_flatMap, List.filter_append, hold, hnew]

theorem gap_ne_zero_of_before (h : e.Before f) (he : ∃ u ∈ ts, e.follows u = true) :
    f.gap ts ≠ 0 := by
  intro h0
  obtain ⟨u, hu, heu⟩ := he
  have hnone := gap_eq_zero_iff.1 h0 u hu
  rw [h.mono u heu] at hnone
  cases hnone

theorem mergeByGap_cons_of_gap_ne_zero (h : ∀ f ∈ es, f.gap (t :: ts) ≠ 0) :
    mergeByGap (t :: ts) es = t :: mergeByGap ts es := by
  rw [mergeByGap_cons, List.filter_eq_nil_iff.2 fun f hf => by simpa using h f hf,
    List.filter_eq_self.2 fun f hf => by simpa using h f hf]
  rfl

/-- An element settles in a merge of later elements at the end of its own gap's old tags. -/
theorem settle_mergeByGap (hes : ∀ f ∈ es, e.Before f) :
    e.settle (mergeByGap ts es) = mergeByGap ts (e :: es) := by
  induction ts generalizing es with
  | nil =>
    rw [mergeByGap_nil, mergeByGap_nil]
    apply settle_of_forall_not
    intro u hu
    obtain ⟨f, hf, rfl⟩ := List.mem_map.1 hu
    exact (hes f hf).not_follows
  | cons t ts ih =>
    rcases exists_or_forall_not e.follows (t :: ts) with h | hnone
    · have hlater : ∀ f ∈ es, f.gap (t :: ts) ≠ 0 := fun f hf => gap_ne_zero_of_before (hes f hf) h
      have hown : e.gap (t :: ts) ≠ 0 := by
        rw [gap_cons_of_exists h]
        exact Nat.succ_ne_zero _
      rw [mergeByGap_cons_of_gap_ne_zero hlater,
        mergeByGap_cons_of_gap_ne_zero (List.forall_mem_cons.2 ⟨hown, hlater⟩), ← ih hes]
      refine settle_cons ?_
      obtain ⟨u, hu, heu⟩ := h
      exact ⟨u, List.mem_cons.2 ((List.mem_cons.1 hu).imp_right fun hu =>
        mem_mergeByGap.2 (.inr hu)), heu⟩
    · have hfree : ∀ u ∈ mergeByGap (t :: ts) es, e.follows u = false := by
        intro u hu
        rcases mem_mergeByGap.1 hu with ⟨f, hf, rfl⟩ | hu
        · exact (hes f hf).not_follows
        · exact hnone u hu
      have h0 : e.gap (t :: ts) = 0 := gap_eq_zero_iff.2 hnone
      rw [Element.settle, settle_of_forall_not hfree, mergeByGap_cons, mergeByGap_cons]
      simp [h0]

theorem foldr_settle (hes : es.Pairwise Element.Before) :
    es.foldr (fun e ts => e.settle ts) ts = mergeByGap ts es := by
  induction es with
  | nil => exact mergeByGap_nil_right.symm
  | cons e es ih =>
    have hcons := List.pairwise_cons.1 hes
    rw [List.foldr_cons, ih hcons.2, settle_mergeByGap hcons.1]

theorem settleAll_eq_mergeByGap (hes : es.Pairwise Element.Before) :
    Element.settleAll (batchOf es) ts = mergeByGap ts es := by
  have hp : es.reverse.Perm es := List.reverse_perm es
  rw [Element.settleAll_perm hes (batchOf_perm es), ← Element.settleAll_perm hes hp,
    Element.settleAll, List.foldl_reverse, foldr_settle hes]

end gap

namespace Declaration

/-- The batch leaves the merge of the tags it finds with those of the elements that lack one. -/
theorem insertAll_merges (d : Declaration) (b : Block) (p : Policy)
    (hk : d.kind ∈ DeclarationKind.known) (hd : d.doc = some b) (hn : d.Distinct)
    (hs : d.Spelled p) :
    ∃ is d' es, d.insertAll p = .ok (is, d') ∧ d.missingElements p = .ok es ∧
      d'.doc = some { b with tags := mergeByGap b.tags es } := by
  refine ⟨_, _, _, insertAll_eq hk hd, missingElements_of_known hk, ?_⟩
  rw [filled, doc_withTags hd, tags_of_doc hd, settleAll_eq_mergeByGap (pairwise_missing hn hs)]

theorem insertAll_scattered_merges : ∃ is d' es,
    scattered.insertAll {} = .ok (is, d') ∧ scattered.missingElements {} = .ok es ∧
      es.length = 4 ∧ d'.tags = mergeByGap scattered.tags es := by
  obtain ⟨is, d', es, hi, hm, hdoc⟩ := insertAll_merges scattered _ {} (by decide) rfl (by decide)
    (by decide)
  exact ⟨is, d', es, hi, hm, by cases hm; rfl, tags_of_doc hdoc⟩

end Declaration

end DocComment

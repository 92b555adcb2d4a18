import DocComment.Placement
import Mathlib.Data.List.InsertIdx

/-! A member settles in a list one past the last member that it has to follow. Two members settle in
either order alike where one of them has to follow the other and all that the other follows
(`settle_comm`). A list in which all stands in order stays so (`pairwise_settle`). -/

namespace DocComment

section settle
variable {α : Type} {p q : α → Bool} {x y : α} {l : List α}

theorem exists_or_forall_not (p : α → Bool) (l : List α) :
    (∃ a ∈ l, p a = true) ∨ ∀ a ∈ l, p a = false := by
  by_cases h : ∃ a ∈ l, p a = true
  · exact .inl h
  · exact .inr fun a ha => by simpa using fun hp => h ⟨a, ha, hp⟩

theorem pastLast_eq_zero_iff : pastLast p l = 0 ↔ ∀ a ∈ l, p a = false := by
  rw [← Nat.le_zero, pastLast_le_iff]
  constructor
  · intro h a ha
    obtain ⟨i, hi⟩ := List.mem_iff_getElem?.1 ha
    by_contra hp
    exact absurd (h i a hi (by simpa using hp)) (Nat.not_lt_zero i)
  · intro h i a hi hp
    rw [h a (List.mem_of_getElem? hi)] at hp
    cases hp

theorem pastLast_cons_of_exists {a : α} (h : ∃ b ∈ a :: l, p b = true) :
    pastLast p (a :: l) = pastLast p l + 1 := by
  rw [pastLast_cons]
  cases hl : pastLast p l with
  | zero =>
    have ha : p a = true := by
      obtain ⟨b, hb, hp⟩ := h
      rcases List.mem_cons.1 hb with rfl | hb
      · exact hp
      · rw [pastLast_eq_zero_iff.1 hl b hb] at hp
        cases hp
    simp [ha]
  | succ n => rfl

theorem pastLast_congr (h : ∀ a ∈ l, p a = q a) : pastLast p l = pastLast q l := by
  induction l with
  | nil => rfl
  | cons a l ih =>
    rw [pastLast_cons, pastLast_cons, h a List.mem_cons_self,
      ih fun b hb => h b (List.mem_cons_of_mem _ hb)]

theorem pastLast_mono (h : ∀ a, p a = true → q a = true) : pastLast p l ≤ pastLast q l := by
  rw [pastLast_le_iff]
  intro i a hi hp
  exact pastLast_le_iff.1 (Nat.le_refl _) i a hi (h a hp)

theorem pastLast_eq_iff (h : ∀ a, p a = true → q a = true) :
    pastLast p l = pastLast q l ↔ ∀ a ∈ l.drop (pastLast p l), q a = false := by
  constructor
  · intro heq a ha
    rw [heq] at ha
    exact eq_false_of_mem_drop_pastLast ha
  · intro hnone
    refine Nat.le_antisymm (pastLast_mono h) (pastLast_le_iff.2 fun i a hi hq => ?_)
    by_contra hge
    have hbehind : a ∈ l.drop (pastLast p l) := by
      refine List.mem_iff_getElem?.2 ⟨i - pastLast p l, ?_⟩
      rw [List.getElem?_drop, Nat.add_sub_cancel' (Nat.le_of_not_lt hge)]
      exact hi
    rw [hnone a hbehind] at hq
    cases hq

/-- The list with `x` one past the last member with `p`. -/
def settle (p : α → Bool) (x : α) (l : List α) : List α := l.insertIdx (pastLast p l) x

theorem settle_of_forall_not (h : ∀ a ∈ l, p a = false) : settle p x l = x :: l := by
  rw [settle, pastLast_eq_zero_iff.2 h, List.insertIdx_zero]

theorem settle_cons {a : α} (h : ∃ b ∈ a :: l, p b = true) :
    settle p x (a :: l) = a :: settle p x l := by
  rw [settle, pastLast_cons_of_exists h, List.insertIdx_succ_cons, settle]

theorem mem_settle {a : α} : a ∈ settle p x l ↔ a = x ∨ a ∈ l :=
  List.mem_insertIdx (pastLast_le l)

theorem sublist_settle : l.Sublist (settle p x l) := List.sublist_insertIdx ..

theorem eraseIdx_settle : (settle p x l).eraseIdx (pastLast p l) = l :=
  List.eraseIdx_insertIdx_self x

theorem eq_pastLast_of_getElem?_settle (hx : x ∉ l) {k : Nat}
    (hk : (settle p x l)[k]? = some x) : k = pastLast p l := by
  rw [settle, List.getElem?_insertIdx] at hk
  rcases Nat.lt_trichotomy k (pastLast p l) with hlt | heq | hgt
  · rw [if_pos hlt] at hk
    exact absurd (List.mem_of_getElem? hk) hx
  · exact heq
  · rw [if_neg (Nat.not_lt_of_gt hgt), if_neg (Nat.ne_of_gt hgt)] at hk
    exact absurd (List.mem_of_getElem? hk) hx

theorem settle_congr (h : ∀ a ∈ l, p a = q a) : settle p x l = settle q x l := by
  rw [settle, settle, pastLast_congr h]

theorem settle_congr_of_pairwise {R : α → α → Prop} {a : α} (hl : l.Pairwise R) (ha : a ∈ l)
    (hpa : p a = true) (hpq : ∀ b, p b = true → q b = true)
    (hq : ∀ b ∈ l, q b = true → R a b → p b = true) : settle p x l = settle q x l := by
  have heq : pastLast p l = pastLast q l := by
    induction l with
    | nil => rfl
    | cons b l ih =>
      have hcons := List.pairwise_cons.1 hl
      rcases List.mem_cons.1 ha with rfl | ha
      · -- all of `l` stands after `a`
        have hsame : ∀ c ∈ l, p c = q c := by
          intro c hc
          rw [Bool.eq_iff_iff]
          exact ⟨hpq c, fun h => hq c (List.mem_cons_of_mem _ hc) h (hcons.1 c hc)⟩
        rw [pastLast_cons, pastLast_cons, pastLast_congr hsame, hpa, hpq a hpa]
      · rw [pastLast_cons_of_exists ⟨a, List.mem_cons_of_mem _ ha, hpa⟩,
          pastLast_cons_of_exists ⟨a, List.mem_cons_of_mem _ ha, hpq a hpa⟩,
          ih hcons.2 ha fun c hc => hq c (List.mem_cons_of_mem _ hc)]
  rw [settle, settle, heq]

/-- `x` comes before a member that it does not follow, unless it follows a later one. -/
theorem pair_sublist_settle {R : α → α → Prop} {t : α} (hl : l.Pairwise R) (ht : t ∈ l)
    (hpt : p t = false) (hR : ∀ a ∈ l, p a = true → ¬ R t a) :
    [x, t].Sublist (settle p x l) := by
  induction l with
  | nil => cases ht
  | cons a l ih =>
    have hcons := List.pairwise_cons.1 hl
    rcases exists_or_forall_not p (a :: l) with hp | hnone
    · rw [settle_cons hp]
      rcases List.mem_cons.1 ht with rfl | ht
      · obtain ⟨b, hb, hpb⟩ := hp
        rcases List.mem_cons.1 hb with rfl | hb'
        · rw [hpt] at hpb
          cases hpb
        · exact absurd (hcons.1 b hb') (hR b hb hpb)
      · exact (ih hcons.2 ht fun b hb => hR b (List.mem_cons_of_mem _ hb)).cons a
    · rw [settle_of_forall_not hnone]
      exact (List.singleton_sublist.2 ht).cons_cons x

/-- If `y` follows `x` and all that `x` follows, while `x` does not follow `y`, it does not matter
which of them comes first. -/
theorem settle_comm (hpq : ∀ a, p a = true → q a = true) (hx : q x = true) (hy : p y = false) :
    settle q y (settle p x l) = settle p x (settle q y l) := by
  induction l with
  | nil =>
    have h1 : settle q y [x] = [x, y] := by
      rw [settle_cons ⟨x, List.mem_cons_self, hx⟩, settle_of_forall_not (by simp)]
    have h2 : settle p x [y] = [x, y] := settle_of_forall_not (by simpa using hy)
    rw [settle_of_forall_not (p := p) (by simp), settle_of_forall_not (l := []) (by simp), h1, h2]
  | cons a l ih =>
    rcases exists_or_forall_not p (a :: l) with ⟨b, hb, hpb⟩ | hnone
    · have hkeep : ∀ {r : α → Bool} {z : α}, b ∈ a :: settle r z l := by
        intro r z
        rcases List.mem_cons.1 hb with rfl | hb
        · exact List.mem_cons_self
        · exact List.mem_cons_of_mem _ (mem_settle.2 (.inr hb))
      rw [settle_cons ⟨b, hb, hpb⟩, settle_cons ⟨b, hkeep, hpq b hpb⟩,
        settle_cons ⟨b, hb, hpq b hpb⟩, settle_cons ⟨b, hkeep, hpb⟩, ih]
    · -- nothing that `x` follows is there: it goes first, before and after `y` has come
      have hnone' : ∀ b ∈ settle q y (a :: l), p b = false := by
        intro b hb
        rcases mem_settle.1 hb with rfl | hb
        · exact hy
        · exact hnone b hb
      rw [settle_of_forall_not hnone, settle_of_forall_not hnone',
        settle_cons ⟨x, List.mem_cons_self, hx⟩]

/-- `R s t` tells that `s` may stand before `t`: then it is enough that `R` goes through the members
that `x` follows, and that `x` may stand before those it does not follow. -/
theorem pairwise_settle {R : α → α → Prop} (hl : l.Pairwise R)
    (hfree : ∀ a ∈ l, p a = false → R x a) (hback : ∀ a ∈ l, p a = true → R a x)
    (hthrough : ∀ s ∈ l, ∀ a ∈ l, R s a → p a = true → R s x) : (settle p x l).Pairwise R := by
  induction l with
  | nil => simp [settle_of_forall_not]
  | cons a l ih =>
    have hcons := List.pairwise_cons.1 hl
    rcases exists_or_forall_not p (a :: l) with hp | hnone
    · have hax : R a x := by
        obtain ⟨b, hb, hpb⟩ := hp
        rcases List.mem_cons.1 hb with rfl | hb'
        · exact hback b hb hpb
        · exact hthrough a List.mem_cons_self b hb (hcons.1 b hb') hpb
      rw [settle_cons hp]
      refine List.pairwise_cons.2 ⟨fun b hb => ?_, ih hcons.2
        (fun b hb => hfree b (List.mem_cons_of_mem _ hb))
        (fun b hb => hback b (List.mem_cons_of_mem _ hb))
        fun s hs b hb => hthrough s (List.mem_cons_of_mem _ hs) b (List.mem_cons_of_mem _ hb)⟩
      rcases mem_settle.1 hb with rfl | hb
      · exact hax
      · exact hcons.1 b hb
    · rw [settle_of_forall_not hnone]
      exact List.pairwise_cons.2 ⟨fun b hb => hfree b hb (hnone b hb), hl⟩

end settle

end DocComment

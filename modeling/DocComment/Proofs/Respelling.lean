import DocComment.Proofs.EditScript
import DocComment.Proofs.Naming

/-! The tags of a response, sent back by the client. Nothing is lost on the way, and each is read as
the tag that it was written for, unless a blank parted the at-sign of the client from the name of a
known kind: such a tag is of an unknown kind at first and of that kind from then on
(`read_again`). -/

namespace DocComment

open Data

/-- A tag that is written as an at-sign, a blank and the name of a known kind. -/
def WrittenTag.Parted (w : WrittenTag) : Prop :=
  w.name.head? = some (.char '@') ∧ ∃ c rest, w.name.dropAts = c :: rest ∧
    Text.isBlank c.code = true ∧ TagKind.ofName rest ≠ .other

namespace WrittenTag

variable {w : WrittenTag} {ws : List WrittenTag} {place : List String}

theorem parted_iff : w.Parted ↔
    TagKind.ofName w.name = .other ∧ TagKind.ofName w.name.dropAts ≠ .other := by
  constructor
  · rintro ⟨hat, c, rest, hname, hc, hk⟩
    refine ⟨TagKind.ofName_of_blank hat hname hc, ?_⟩
    rwa [hname, TagKind.ofName_cons_of_isBlank hc]
  · rintro ⟨hother, hk⟩
    by_contra hw
    refine hk (hother ▸ TagKind.ofName_dropAts fun hat c rest hname => ?_)
    rw [Bool.eq_false_iff]
    intro hc
    rw [hname, TagKind.ofName_cons_of_isBlank hc] at hk
    exact hw ⟨hat, c, rest, hname, hc, hk⟩

@[simp] theorem kind_read : w.read.kind = TagKind.ofName w.name := rfl

@[simp] theorem fragments_read : w.read.fragments = w.fragments := rfl

theorem read_of_ofName_ne_other (hk : TagKind.ofName w.name ≠ .other) :
    w.read = { kind := TagKind.ofName w.name, fragments := w.fragments } := by
  rw [read, if_neg hk]

theorem name_read : w.read.name = if TagKind.ofName w.name = .other ∧ w.name.dropAts ≠ []
    then w.name.dropAts else (TagKind.ofName w.name).word := by
  by_cases hother : TagKind.ofName w.name = .other
  · simp [Tag.name, read, hother, Text.dropAts_dropAts]
  · simp [Tag.name, read, hother]

end WrittenTag

namespace Tag

variable {t u : Tag} {w : WrittenTag}

@[simp] theorem name_written : t.written.name = t.name := rfl

@[simp] theorem fragments_written : t.written.fragments = t.fragments := rfl

theorem written_eq_iff : t.written = u.written ↔ t.name = u.name ∧ t.fragments = u.fragments := by
  simp [written]

/-- A name that responses can give: it is there, and no at-sign leads it. -/
def Spelled (t : Tag) : Prop := t.name ≠ [] ∧ t.name.dropAts = t.name

theorem name_of_kind_ne_other (hk : t.kind ≠ .other) : t.name = t.kind.word :=
  if_neg fun h => hk h.1

theorem ofName_name_of_kind_ne_other (hk : t.kind ≠ .other) : TagKind.ofName t.name = t.kind := by
  rw [name_of_kind_ne_other hk, TagKind.ofName_word]

theorem spelled_of_kind_ne_other (hk : t.kind ≠ .other) : t.Spelled := by
  rw [Spelled, name_of_kind_ne_other hk]
  exact ⟨TagKind.word_ne_nil _, TagKind.dropAts_word _⟩

theorem spelled_read (w : WrittenTag) : w.read.Spelled := by
  rw [Spelled, WrittenTag.name_read]
  split
  next h => exact ⟨h.2, Text.dropAts_dropAts⟩
  next => exact ⟨TagKind.word_ne_nil _, TagKind.dropAts_word _⟩

theorem name_read_written (ht : t.Spelled) : t.written.read.name =
    if TagKind.ofName t.name = .other then t.name else (TagKind.ofName t.name).word := by
  rw [WrittenTag.name_read, name_written, ht.2]
  simp only [ht.1, ne_eq, not_false_eq_true, and_true]

theorem name_read_written_of_kind (ht : t.Spelled) (hk : TagKind.ofName t.name = t.kind) :
    t.written.read.name = t.name := by
  rw [name_read_written ht, hk]
  by_cases hother : t.kind = .other
  · rw [if_pos hother]
  · rw [if_neg hother, name_of_kind_ne_other hother]

theorem ofName_name_read_iff : TagKind.ofName w.read.name = TagKind.ofName w.name ↔ ¬ w.Parted := by
  rw [WrittenTag.parted_iff, WrittenTag.name_read]
  by_cases hother : TagKind.ofName w.name = .other
  · by_cases hnil : w.name.dropAts = []
    · have hempty : TagKind.ofName [] = .other := by decide
      simp [hother, hnil, hempty]
    · simp [hother, hnil]
  · simp [hother]

theorem name_read_written_read_iff : w.read.written.read.name = w.read.name ↔ ¬ w.Parted := by
  constructor
  · intro hsame hw
    obtain ⟨hother, hk⟩ := WrittenTag.parted_iff.1 hw
    obtain ⟨-, c, rest, hname, hc, -⟩ := hw
    have hfirst : w.read.name = w.name.dropAts := by
      rw [WrittenTag.name_read, hname, if_pos ⟨hother, List.cons_ne_nil _ _⟩]
    -- no word of a kind begins with a blank
    have hhead := TagKind.head?_word (TagKind.ofName w.name.dropAts)
    rw [name_read_written (spelled_read w), hfirst, if_neg hk] at hsame
    rw [hsame, hname, List.head?_cons, Option.any_some, hc] at hhead
    cases hhead
  · intro hw
    exact name_read_written_of_kind (spelled_read w) (ofName_name_read_iff.2 hw)

/-- A tag that was sent back once keeps its kind and its name from then on. -/
theorem read_written_read_written (ht : t.Spelled) :
    t.written.read.written.read = t.written.read := by
  by_cases hother : TagKind.ofName t.name = .other
  · have hwritten : t.written.read.written = t.written := by
      refine written_eq_iff.2 ⟨?_, rfl⟩
      rw [name_read_written ht, if_pos hother]
    rw [hwritten]
  · have hsecond : t.written.read = { kind := TagKind.ofName t.name, fragments := t.fragments } :=
      WrittenTag.read_of_ofName_ne_other hother
    have hname : t.written.read.name = (TagKind.ofName t.name).word := by
      rw [name_read_written ht, if_neg hother]
    rw [WrittenTag.read_of_ofName_ne_other (by rwa [name_written, hname, TagKind.ofName_word]),
      name_written, hname, TagKind.ofName_word, hsecond]
    rfl

end Tag

namespace Checked

variable {α β : Type}

theorem all_mapIdx_map {f : α → β} (as : List α) {read : Nat → β → Checked α}
    (h : ∀ i a, read i (f a) = .valid a) : all ((as.map f).mapIdx read) = .valid as := by
  induction as generalizing read with
  | nil => rfl
  | cons a as ih =>
    rw [List.map_cons, List.mapIdx_cons, all, h, ih fun i a => h (i + 1) a]
    rfl

end Checked

namespace Check

variable {α : Type} {c : Check α} {place : List String}

theorem optional_of_get? {name : String} {t : Table} {v : Value} {unset : α}
    (h : t.get? name = some v) : optional name c unset place t = c (place ++ [name]) v := by
  simp only [optional, h]

theorem listOf_map {f : α → Value} (h : ∀ place a, c place (f a) = .valid a) (as : List α) :
    listOf c place (.list (as.map f)) = .valid as :=
  Checked.all_mapIdx_map as fun _ a => h _ a

theorem fragment_value (place : List String) (f : Fragment) :
    fragment place f.value = .valid f := by
  cases f <;> rfl

theorem writtenTag_value (place : List String) (w : WrittenTag) :
    writtenTag place w.value = .valid w := by
  have hfragments : listOf fragment (place ++ ["fragments"])
      (.list (w.fragments.map Fragment.value)) = .valid w.fragments :=
    listOf_map fragment_value w.fragments
  exact Checked.seq_eq_valid.2 ⟨_, rfl, _, hfragments, rfl⟩

end Check

/-- The declaration that a table stands for has these tags, in the form that responses have. -/
def Data.Table.Sends (t : Table) (ws : List WrittenTag) : Prop :=
  ∃ tb : Table, t.get? "doc" = some (.table tb) ∧
    tb.get? "tags" = some (.list (ws.map WrittenTag.value))

theorem Check.tags_of_sends {t : Table} {ws : List WrittenTag} {d : Declaration}
    {place : List String} (h : t.Sends ws) (hd : Check.declaration place (.table t) = .valid d) :
    d.tags = ws.map WrittenTag.read := by
  obtain ⟨tb, hdoc, htags⟩ := h
  obtain ⟨-, _, heq, hread⟩ := Check.declaration_eq_valid hd
  cases heq
  rw [Check.optional_of_get? hdoc] at hread
  obtain ⟨b, hb, hsome⟩ := Checked.map_eq_valid.1 hread
  obtain ⟨_, us, heq, hus, hlist⟩ := Check.block_eq_valid hb
  cases heq
  rw [Check.optional_of_get? htags, Check.listOf_map Check.writtenTag_value] at hlist
  cases hlist
  rw [Declaration.tags_of_doc hsome.symm, hus]

theorem Check.tags_of_response {t : Table} {plan : Plan} {d : Declaration} {place : List String}
    (h : t.Sends plan.response.tags) (hd : Check.declaration place (.table t) = .valid d) :
    d.tags = plan.tags.map fun t => t.written.read := by
  rw [Check.tags_of_sends h hd, Plan.response, List.map_map]
  rfl

theorem Element.kind_tag_ne_other (e : Element) (fresh : Bool) : (e.tag fresh).kind ≠ .other := by
  rw [kind_tag]
  cases e.role <;> decide

namespace Declaration

variable {d d' : Declaration} {s : Step} {plan : Plan} {t : Tag}

/-- A plan keeps the tags that are there, unless it is a refusal or a removal, and others come from
elements only. -/
theorem Yields.mem_tags (h : d.Yields s plan d') :
    (∀ t ∈ plan.tags, t ∈ d.tags ∨ ∃ e fresh, t = Element.tag e fresh) ∧
      ((∀ i, s ≠ .remove i) → plan.errors = [] → ∀ t ∈ d.tags, t ∈ plan.tags) := by
  cases h with
  | idle hidle hkeep =>
    refine ⟨fun t ht => .inl ?_, fun _ he t ht => by rwa [hkeep.tags he]⟩
    by_cases he : plan.errors = []
    · rwa [← hkeep.tags he]
    · rw [hkeep.alone he] at ht
      cases ht
  | batch hd =>
    rw [tags_batchPlan hd]
    refine ⟨fun t ht => ?_, fun _ _ t ht => Element.mem_settleAll.2 (.inr ht)⟩
    rcases Element.mem_settleAll.1 ht with ⟨e, -, rfl⟩ | hold
    · exact .inr ⟨e, false, rfl⟩
    · exact .inl hold
  | single he =>
    refine ⟨fun t ht => ?_, fun _ _ t ht => mem_settle.2 (.inr ht)⟩
    rcases mem_settle.1 ht with rfl | hold
    · exact .inr ⟨_, _, rfl⟩
    · exact .inl hold
  | removal hi =>
    exact ⟨fun t ht => .inl (List.mem_of_mem_eraseIdx ht), fun hs => absurd rfl (hs _)⟩

theorem Yields.read_or_known (h : d.Yields s plan d') {ws : List WrittenTag}
    (hws : d.tags = ws.map WrittenTag.read) (ht : t ∈ plan.tags) :
    (∃ w ∈ ws, t = w.read) ∨ t.kind ≠ .other := by
  rcases h.mem_tags.1 t ht with hold | ⟨e, fresh, rfl⟩
  · rw [hws] at hold
    obtain ⟨w, hw, rfl⟩ := List.mem_map.1 hold
    exact .inl ⟨w, hw, rfl⟩
  · exact .inr (Element.kind_tag_ne_other e fresh)

theorem Yields.spelled (h : d.Yields s plan d') {ws : List WrittenTag}
    (hws : d.tags = ws.map WrittenTag.read) : ∀ t ∈ plan.tags, t.Spelled := by
  intro t ht
  rcases h.read_or_known hws ht with ⟨w, -, rfl⟩ | hk
  · exact Tag.spelled_read w
  · exact Tag.spelled_of_kind_ne_other hk

theorem Yields.ofName_name (h : d.Yields s plan d') {ws : List WrittenTag}
    (hws : d.tags = ws.map WrittenTag.read) (hnone : ∀ w ∈ ws, ¬ w.Parted) :
    ∀ t ∈ plan.tags, TagKind.ofName t.name = t.kind := by
  intro t ht
  rcases h.read_or_known hws ht with ⟨w, hw, rfl⟩ | hk
  · exact Tag.ofName_name_read_iff.2 (hnone w hw)
  · exact Tag.ofName_name_of_kind_ne_other hk

end Declaration

/-- A tag that comes back is read as it was, in kind, name and fragments, unless it was written with
a blank between its at-sign and the name of a known kind. Such a tag is of no known kind when it is
first read, and of a known one when it comes back. -/
theorem WrittenTag.read_again (w : WrittenTag) :
    (w.read.written.read.fragments = w.read.fragments ∧
      (w.read.written.read.kind = w.read.kind ↔ ¬ w.Parted) ∧
      (w.read.written.read.written = w.read.written ↔ ¬ w.Parted) ∧
      (w.Parted → w.read.kind = .other ∧ w.read.written.read.kind ≠ .other) ∧
      w.read.written.read.written.read = w.read.written.read) ∧
    ∀ (d : Declaration) (ws : List WrittenTag) (s : Step), d.kind ∈ DeclarationKind.known →
      d.tags = ws.map WrittenTag.read →
        d.Unanswerable s ∧ d.step s = .error .unwritable ∨
        ∃ plan d', d.step s = .ok (plan, d') ∧ ∀ place (t : Table) back,
          t.Sends plan.response.tags → Check.declaration place (.table t) = .valid back →
          back.tags.map Tag.fragments = plan.tags.map Tag.fragments ∧
          ((∀ v ∈ ws, ¬ v.Parted) → back.tags.map Tag.kind = plan.tags.map Tag.kind ∧
            back.tags.map Tag.written = plan.response.tags) ∧
          ((∀ i, s ≠ .remove i) → plan.errors = [] →
            back.tags.map Tag.kind = plan.tags.map Tag.kind → ∀ v ∈ ws, ¬ v.Parted) := by
  constructor
  · have hfragments : w.read.written.read.fragments = w.read.fragments := by
      rw [fragments_read, Tag.fragments_written]
    rw [kind_read, kind_read, Tag.name_written]
    refine ⟨hfragments, Tag.ofName_name_read_iff, ?_, fun hw => ?_,
      Tag.read_written_read_written (Tag.spelled_read w)⟩
    · rw [Tag.written_eq_iff, Tag.name_read_written_read_iff]
      exact and_iff_left hfragments
    · have hother : TagKind.ofName w.name = .other := (parted_iff.1 hw).1
      refine ⟨hother, fun hk => ?_⟩
      exact Tag.ofName_name_read_iff.1 (hk.trans hother.symm) hw
  · intro d ws s hk hws
    by_cases ha : d.Unanswerable s
    · exact .inl ⟨ha, Declaration.step_of_unanswerable ha⟩
    obtain ⟨plan, d', hstep, hyields⟩ := Declaration.exists_step hk ha
    refine .inr ⟨plan, d', hstep, fun place t back hsends hback => ?_⟩
    simp only [Check.tags_of_response hsends hback, List.map_map, Function.comp_def,
      WrittenTag.kind_read, Tag.name_written, WrittenTag.fragments_read, Tag.fragments_written]
    refine ⟨trivial, fun hnone => ?_, fun hs he hsame v hv => ?_⟩
    · have hkind := hyields.ofName_name hws hnone
      refine ⟨List.map_congr_left hkind, List.map_congr_left fun t ht => ?_⟩
      have hname := Tag.name_read_written_of_kind (hyields.spelled hws t ht) (hkind t ht)
      exact Tag.written_eq_iff.2 ⟨hname, rfl⟩
    · have hmem : v.read ∈ plan.tags :=
        hyields.mem_tags.2 hs he _ (hws ▸ List.mem_map_of_mem hv)
      have hkind := List.map_inj_left.1 hsame _ hmem
      rw [WrittenTag.kind_read] at hkind
      exact Tag.ofName_name_read_iff.1 hkind

def blankParam : WrittenTag := ⟨"@ param", [.identifier "a"]⟩

theorem WrittenTag.read_blankParam_again :
    blankParam.read.kind = .other ∧ blankParam.read.written.read.kind = .param ∧
      blankParam.read.written.read.written ≠ blankParam.read.written := by
  decide

def commented : Declaration :=
  { kind := .method
    name := "load"
    parameters := [⟨"a", []⟩]
    doc := some { tags := [blankParam.read] } }

def returning (ws : List WrittenTag) : Table :=
  [("kind", .text "method"), ("doc", .table [("tags", .list (ws.map WrittenTag.value))])]

/-- The parameter gets a second tag, and with the response sent back it has two. -/
theorem WrittenTag.read_again_commented : ∃ plan d' back,
    commented.step (.addOne {} .valueParameter 0) = .ok (plan, d') ∧
    Check.declaration [] (.table (returning plan.response.tags)) = .valid back ∧
    plan.tags.map Tag.kind = [.param, .other] ∧ back.tags.map Tag.kind ≠ plan.tags.map Tag.kind ∧
    back.tags.map Tag.fragments = plan.tags.map Tag.fragments := by
  obtain ⟨-, hplans⟩ := WrittenTag.read_again blankParam
  obtain ⟨plan, d', hstep, hreturn⟩ := (hplans commented [blankParam]
    (.addOne {} .valueParameter 0) (by decide) rfl).resolve_left fun ha => by cases ha.2
  cases hstep
  obtain ⟨hfragments, -, hkinds⟩ := hreturn [] (returning _) _ ⟨_, rfl, rfl⟩ rfl
  refine ⟨_, _, _, rfl, rfl, by decide, fun hsame => ?_, hfragments⟩
  refine hkinds (fun i h => by cases h) rfl hsame blankParam List.mem_cons_self ?_
  exact ⟨rfl, _, _, rfl, by decide, by decide⟩

end DocComment

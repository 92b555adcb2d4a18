import DocComment.Command
import DocComment.Proofs.Session
import DocComment.Proofs.Validation

/-! The insertions of a response as an edit script. Applied in turn to the tags that the client
wrote, each is in bounds, and they end in the tags of the response (`planFor_replays`). -/

namespace DocComment

open Data

def Data.Value.member? (v : Value) (key : Text) : Option Value :=
  match v with
  | .table t => Table.get? t key
  | _ => none

namespace WrittenInsertion

def insertInto? (i : WrittenInsertion) (ts : List WrittenTag) : Option (List WrittenTag) :=
  if i.index ≤ ts.length then some (ts.insertIdx i.index i.tag) else none

def replay? (is : List WrittenInsertion) (ts : List WrittenTag) : Option (List WrittenTag) :=
  is.foldlM (fun ts i => i.insertInto? ts) ts

variable {i : WrittenInsertion} {is : List WrittenInsertion} {ts us : List WrittenTag}

theorem insertInto?_eq_some : i.insertInto? ts = some us ↔
    i.index ≤ ts.length ∧ ts.insertIdx i.index i.tag = us := by
  simp [insertInto?]

theorem replay?_cons : replay? (i :: is) ts = (i.insertInto? ts).bind (replay? is) := rfl

theorem sublist_of_replay? (h : replay? is ts = some us) : ts.Sublist us := by
  induction is generalizing ts with
  | nil =>
    cases h
    exact List.Sublist.refl _
  | cons i is ih =>
    rw [replay?_cons] at h
    obtain ⟨vs, hi, hvs⟩ := Option.bind_eq_some_iff.1 h
    obtain ⟨-, rfl⟩ := insertInto?_eq_some.1 hi
    exact (List.sublist_insertIdx ..).trans (ih hvs)

theorem length_of_replay? (h : replay? is ts = some us) :
    us.length = ts.length + is.length := by
  induction is generalizing ts with
  | nil =>
    cases h
    rfl
  | cons i is ih =>
    rw [replay?_cons] at h
    obtain ⟨vs, hi, hvs⟩ := Option.bind_eq_some_iff.1 h
    obtain ⟨hle, rfl⟩ := insertInto?_eq_some.1 hi
    rw [ih hvs, List.length_insertIdx_of_le_length hle, List.length_cons]
    omega

end WrittenInsertion

theorem Replays.written {ts us : List Tag} {is : List Insertion} (h : Replays ts is us) :
    WrittenInsertion.replay? (is.map Insertion.written) (ts.map Tag.written) =
      some (us.map Tag.written) := by
  induction h with
  | nil => rfl
  | @cons i is ts us hi his ih =>
    have hinto : i.written.insertInto? (ts.map Tag.written) =
        some ((ts.insertIdx i.index i.tag).map Tag.written) := by
      refine WrittenInsertion.insertInto?_eq_some.2 ⟨?_, (List.map_insertIdx ..).symm⟩
      rwa [List.length_map]
    rw [List.map_cons, WrittenInsertion.replay?_cons, hinto]
    exact ih

namespace Declaration

variable {d d' : Declaration} {s : Step} {plan : Plan} {p : Policy}

theorem Yields.replay (h : d.Yields s plan d') (hs : ∀ i, s ≠ .remove i)
    (he : plan.errors = []) : WrittenInsertion.replay? plan.response.insertions
      (d.tags.map Tag.written) = some plan.response.tags := by
  rw [Plan.response, h.tags_eq he]
  exact (h.replays hs).written

theorem Yields.length_insertions {indent : Text} (h : d.Yields (.addAll p indent) plan d')
    (hd : d.doc ≠ none) : plan.insertions.length = (d.missing p).length := by
  cases h with
  | idle hidle hkeep => exact absurd (hidle p indent rfl) hd
  | batch hd => rw [insertions_batchPlan, length_batchInsertions]

end Declaration

namespace TagsRequest

/-- The tags of the doc comment as the client wrote them; none where there is no comment. -/
def writtenTags (payload : Value) : List WrittenTag :=
  let tags := do (← (← payload.member? "declaration").member? "doc").member? "tags"
  match tags with
  | none => []
  | some v =>
    match Check.listOf Check.writtenTag ["declaration", "doc", "tags"] v with
    | .valid ws => ws
    | .faulty _ => []

def spelledTags (payload : Value) : List WrittenTag :=
  (writtenTags payload).map fun w => w.read.written

def step (r : TagsRequest) (p : Policy) : Step :=
  match r.element with
  | none => .addAll p r.indent
  | some (role, position) => .addOne p role position

end TagsRequest

section read
variable {t : Table} {r : TagsRequest}

theorem TagsRequest.tags_of_read (hr : TagsRequest.read (.table t) = .ok r) :
    r.declaration.tags = (writtenTags (.table t)).map WrittenTag.read := by
  obtain ⟨_, heq, _, hv, hvalid⟩ := declaration_of_read hr
  cases heq
  obtain ⟨-, td, rfl, hdoc⟩ := Check.declaration_eq_valid hvalid
  rcases Check.optional_eq_valid.1 hdoc with ⟨w, hw, hnull⟩ | ⟨hw, hnone⟩
  · rcases Check.nullable_eq_valid.1 hnull with ⟨rfl, hnone⟩ | ⟨-, b, hb, hsome⟩
    · simp [Declaration.tags, ← hnone, writtenTags, Value.member?, hv, hw]
    · obtain ⟨tb, ws, rfl, htags, hws⟩ := Check.block_eq_valid hb
      rcases Check.optional_eq_valid.1 hws with ⟨u, hu, hlist⟩ | ⟨hu, rfl⟩
      · have hlist' : Check.listOf Check.writtenTag ["declaration", "doc", "tags"] u =
          .valid ws := hlist
        simp [Declaration.tags, ← hsome, htags, writtenTags, Value.member?, hv, hw, hu, hlist']
      · simp [Declaration.tags, ← hsome, htags, writtenTags, Value.member?, hv, hw, hu]
  · simp [Declaration.tags, ← hnone, writtenTags, Value.member?, hv, hw]

theorem TagsRequest.map_written_of_read (hr : TagsRequest.read (.table t) = .ok r) :
    r.declaration.tags.map Tag.written = spelledTags (.table t) := by
  rw [tags_of_read hr, List.map_map]
  rfl

end read

theorem TagsRequest.step_ne_remove (r : TagsRequest) (p : Policy) (i : Int) :
    r.step p ≠ .remove i := by
  unfold step
  split <;> exact fun h => by cases h

theorem planFor_of_step {r : TagsRequest} {p : Policy} {plan : Plan} {d : Declaration}
    (h : r.declaration.step (r.step p) = .ok (plan, d)) :
    ∃ trace, Command.planFor r p = .ok (plan, d, trace) := by
  unfold TagsRequest.step at h
  unfold Command.planFor
  cases hr : r.element with
  | none =>
    rw [hr] at h
    have hall : r.declaration.planAll p r.indent = .ok (plan, d) := h
    rw [hall]
    exact ⟨_, rfl⟩
  | some at? =>
    rw [hr] at h
    have hone : r.declaration.planOne p at?.1 at?.2 = .ok (plan, d) := h
    simp only [hone]
    exact ⟨_, rfl⟩

theorem planFor_of_unanswerable {r : TagsRequest} {p : Policy}
    (h : r.declaration.Unanswerable (r.step p)) : Command.planFor r p = .error .unwritable := by
  cases hr : r.element with
  | none =>
    rw [TagsRequest.step, hr] at h
    exact absurd h id
  | some at? =>
    rw [TagsRequest.step, hr] at h
    simp only [Command.planFor, hr, Declaration.planOne_of_unanswerable h]
    rfl

/-- A request on a declaration of a known kind has a plan under every policy, unless it is to be
refused and cannot be. -/
theorem TagsRequest.exists_plan {r : TagsRequest} {p : Policy}
    (hk : r.declaration.kind ∈ DeclarationKind.known)
    (ha : ¬ r.declaration.Unanswerable (r.step p)) : ∃ plan d trace,
      Command.planFor r p = .ok (plan, d, trace) ∧ r.declaration.Yields (r.step p) plan d := by
  obtain ⟨plan, d, hstep, hyields⟩ := Declaration.exists_step hk ha
  obtain ⟨trace, hplan⟩ := planFor_of_step hstep
  exact ⟨plan, d, trace, hplan, hyields⟩

theorem answerTags_of_planFor {v : Validation} {payload : Value} {r : TagsRequest} {p : Policy}
    {plan : Plan} {d : Declaration} {trace log : List Event} {config : ConfigFile}
    (hr : v.tags payload = .ok r) (hplan : Command.planFor r p = .ok (plan, d, trace))
    (hp : config.policy r.overrides = .ok (p, log)) :
    Command.answerTags v payload config = .ok (plan.response, log ++ trace) := by
  simp only [Command.answerTags, hr, hp, hplan]

/-- Every request that can be read is answered by a plan, whatever the policy, or is to be refused
and cannot be. Unless the answer names an error, its insertions in turn make its tags of those that
the client wrote; a batch on a doc comment has one for each element that lacks a tag. -/
theorem planFor_replays (t : Table) (r : TagsRequest) (p : Policy)
    (hr : TagsRequest.read (.table t) = .ok r) :
    r.declaration.Unanswerable (r.step p) ∧ Command.planFor r p = .error .unwritable ∨
    ∃ plan d trace, Command.planFor r p = .ok (plan, d, trace) ∧
      (∀ config log, config.policy r.overrides = .ok (p, log) →
        Command.missingTags.run .checked (.table t) config = .ok (plan.response, log ++ trace)) ∧
      (plan.response.errors = [] →
        WrittenInsertion.replay? plan.response.insertions (TagsRequest.spelledTags (.table t)) =
          some plan.response.tags ∧
        (TagsRequest.spelledTags (.table t)).Sublist plan.response.tags ∧
        plan.response.tags.length =
          (TagsRequest.spelledTags (.table t)).length + plan.response.insertions.length) ∧
      (r.element = none → r.declaration.doc ≠ none → ∃ es,
        r.declaration.missingElements p = .ok es ∧
          plan.response.insertions.length = es.length) := by
  by_cases ha : r.declaration.Unanswerable (r.step p)
  · exact .inl ⟨ha, planFor_of_unanswerable ha⟩
  · right
    have hk := TagsRequest.known_of_read hr
    obtain ⟨plan, d, trace, hplan, hyields⟩ := TagsRequest.exists_plan hk ha
    refine ⟨plan, d, trace, hplan, fun config log hp => ?_, ?_, ?_⟩
    · exact answerTags_of_planFor (v := .checked) hr hplan hp
    · intro he
      have hscript := hyields.replay (r.step_ne_remove p) he
      rw [TagsRequest.map_written_of_read hr] at hscript
      exact ⟨hscript, WrittenInsertion.sublist_of_replay? hscript,
        WrittenInsertion.length_of_replay? hscript⟩
    · intro hnone hd
      rw [TagsRequest.step, hnone] at hyields
      refine ⟨_, Declaration.missingElements_of_known hk, ?_⟩
      rw [Plan.response, List.length_map]
      exact hyields.length_insertions hd

/-- Tags in loose spellings, and three elements that lack theirs. -/
def loose : Table :=
  [("declaration", .table [
    ("kind", .text "method"),
    ("parameters", .list [.table [("name", .text "a")], .table [("name", .text "b")]]),
    ("type_parameters", .list [.text "T"]),
    ("return_type", .text "int"),
    ("doc", .table [("tags", .list [
      .table [("name", .text " @Param"), ("fragments", .list [
        .table [("kind", .text "identifier"), ("value", .text "b")]])],
      .table [("name", .text "@@note")]])])])]

theorem planFor_loose_replays : ∃ r plan d trace, TagsRequest.read (.table loose) = .ok r ∧
    Command.planFor r {} = .ok (plan, d, trace) ∧ plan.response.errors = [] ∧
    WrittenInsertion.replay? plan.response.insertions
      [⟨"param", [.identifier "b"]⟩, ⟨"note", []⟩] = some plan.response.tags ∧
    plan.response.insertions.length = 3 := by
  obtain ⟨plan, d, trace, hplan, -, hscript, hcount⟩ :=
    (planFor_replays loose _ {} rfl).resolve_left fun ha => ha.1
  have he : plan.response.errors = [] := by
    cases hplan
    rfl
  have hreplay := (hscript he).1
  obtain ⟨es, hes, hlen⟩ := hcount rfl (by decide)
  refine ⟨_, plan, d, trace, rfl, hplan, he, hreplay, ?_⟩
  cases hes
  exact hlen

end DocComment

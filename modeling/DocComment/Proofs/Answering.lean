import DocComment.Proofs.EditScript

/-! What commands answer. A payload that is no table is a broken contract. A table has its answer,
except where a request for tags reads a configuration that stops it (`ConfigFile.Stops`), or where
an integer has too many digits for the text that would refuse it (`Command.Fails`). No insertion and
no removal of a plan misses the list of tags (`Block.insertEach`, `planRemove_removes`). -/

namespace DocComment

open Data

namespace ConfigFile

/-- What stops a run that reads the file: there is no path to look under or none that a file can
have, the bytes are no text, or the text goes beyond the sizes that are read. -/
inductive Stops (f : ConfigFile) : ReadFault → Prop
  | path {x : PathFault} (h : f.reading = .unusable x) : f.Stops (.path x)
  | text {bytes : List UInt8} {x : ReadFault} (h : f.reading = .content bytes)
      (hx : readText bytes = .error x) : f.Stops x
  | excess {bytes : List UInt8} {text : List Char} {x : Excess} (h : f.reading = .content bytes)
      (ht : readText bytes = .ok text) (hx : Toml.read f.room text = .error (.excess x)) :
      f.Stops (.excess x)

variable {f : ConfigFile} {x : ReadFault}

theorem tablesOf_eq_error {room : Nat} {path : Text} {text : List Char} :
    tablesOf room path text = .error x ↔
      ∃ e, Toml.read room text = .error (.excess e) ∧ x = .excess e := by
  unfold tablesOf
  split
  next h => simp [h]
  next h => simp [h]
  next e h => simp [h, eq_comm]

theorem tables_eq_error : f.tables = .error x ↔ f.Stops x := by
  constructor
  · intro h
    unfold tables at h
    split at h
    next => cases h
    next bytes hbytes =>
      split at h
      next text htext =>
        obtain ⟨e, he, rfl⟩ := tablesOf_eq_error.1 h
        exact .excess hbytes htext he
      next e he =>
        cases h
        exact .text hbytes he
    next e he =>
      cases h
      exact .path he
    next => cases h
  · rintro (h | ⟨h, hx⟩ | ⟨h, ht, hx⟩)
    · simp only [tables, h]
    · simp only [tables, h, hx]
    · simp only [tables, h, ht]
      exact tablesOf_eq_error.2 ⟨_, hx, rfl⟩

theorem policy_eq_error {overrides : Table} : f.policy overrides = .error x ↔ f.Stops x := by
  rw [← tables_eq_error, policy]
  cases f.tables <;> simp [Except.map]

end ConfigFile

def Response.ErrorsAlone (r : Response) : Prop := r.errors ≠ [] → r = { errors := r.errors }

/-- Insertions in turn, each checked against the tags that are there by then. -/
def Block.insertEach (b : Block) (is : List Insertion) : Except PositionFault Block :=
  is.foldlM (fun b i => b.insert i.index i.tag) b

theorem Replays.insertEach {ts us : List Tag} {is : List Insertion} (h : Replays ts is us)
    (b : Block) (hb : b.tags = ts) : b.insertEach is = .ok { b with tags := us } := by
  induction h generalizing b with
  | nil =>
    rw [← hb]
    rfl
  | @cons i is ts us hi his ih =>
    have hinsert : b.insert i.index i.tag =
        .ok { b with tags := ts.insertIdx i.index i.tag } := by
      rw [Block.insert, hb, if_neg (by omega)]
      rfl
    rw [Block.insertEach, List.foldlM_cons, hinsert]
    exact ih _ rfl

namespace Declaration

variable {d d' : Declaration} {s : Step} {plan : Plan} {i : Int}

theorem Yields.block_eq (h : d.Yields s plan d') : d'.block = { d.block with tags := d'.tags } := by
  cases h with
  | idle hidle hkeep =>
    rw [← tags_block]
  | batch hd => rfl
  | single he => rfl
  | removal hi => rfl

theorem Yields.insertEach (h : d.Yields s plan d') (hs : ∀ i, s ≠ .remove i) :
    d.block.insertEach plan.insertions = .ok d'.block := by
  rw [h.block_eq]
  exact (h.replays hs).insertEach _ tags_block

theorem Yields.errorsAlone (h : d.Yields s plan d') : plan.response.ErrorsAlone := by
  intro he
  obtain ⟨es, rfl⟩ : ∃ es, plan = { errors := es } := ⟨_, h.eq_of_errors he⟩
  rfl

/-- A removal that is not refused takes a tag that is there, as long as a list has no more members
than its indices can tell. -/
theorem planRemove_removes (h : d.planRemove i = .ok (plan, d')) (he : plan.errors = [])
    (hsize : (d.tags.length : Int) ≤ Block.greatestIndex) :
    ∃ t, d.block.remove i = .ok (t, d'.block) := by
  by_cases hi : 0 ≤ i ∧ i < d.tags.length
  · obtain ⟨n, rfl⟩ := Int.eq_ofNat_of_zero_le hi.1
    have hn : n < d.tags.length := Int.ofNat_lt.1 hi.2
    rw [planRemove_of_lt hn] at h
    cases h
    refine ⟨d.tags[n], ?_⟩
    have hword : ¬ ((n : Int) < -Block.greatestIndex - 1 ∨ Block.greatestIndex < (n : Int)) := by
      unfold Block.greatestIndex at hsize ⊢
      omega
    have hneg : ¬ (n : Int) < 0 := by omega
    rw [block_withTags, Block.remove, if_neg hword, tags_block]
    simp only [if_neg hneg, Int.toNat_natCast, List.getElem?_eq_getElem hn]
  · by_cases ha : d.Unanswerable (.remove i)
    · cases h.symm.trans (step_of_unanswerable ha)
    · obtain ⟨m, hm⟩ := planRemove_of_not_lt hi ha
      cases h.symm.trans hm
      cases he

end Declaration

theorem eq_ok_of_toOption {ε α : Type} {x : Except ε α} {a : α} (h : x.toOption = some a) :
    x = .ok a := by
  cases x with
  | error e => cases h
  | ok b => exact congrArg Except.ok (Option.some.inj h)

namespace Command

variable {c : Command} {v : Validation} {payload : Value} {t u : Table} {config : ConfigFile}
  {r : TagsRequest} {p : Policy} {log : List Event}

section configuration
variable {openFile : Text → Reading} {room : Nat} {current root named : Option Text}

/-- A command has no place to look for its configuration only where there is neither a current
directory nor another one that it takes; a file that is named will do for the first command. -/
theorem configPath?_eq_none_iff : c.configPath? current root named = none ↔
    current = none ∧ (c = .missingTags ∧ root = none ∧ named = none ∨
      c ≠ .missingTags ∧ (root = none ∨ root = some [])) := by
  have hfilter : root.filter (· ≠ []) = none ↔ root = none ∨ root = some [] := by
    cases root <;> simp [Option.filter]
  cases c with
  | missingTags => cases named <;> simp [configPath?, and_comm]
  | _ =>
    simp only [configPath?, Option.map_eq_none_iff, Option.or_eq_none_iff, hfilter]
    simp [and_comm]

/-- In a workspace all commands look for the same file, whatever the current directory is. -/
theorem configPath?_of_root {directory : Text} (h : directory ≠ []) :
    c.configPath? current (some directory) none = some (ConfigFile.locate directory none) := by
  cases c <;> simp [configPath?, Option.filter, h]

theorem configFile_stops_iff {x : ReadFault} :
    (c.configFile openFile room current root named).Stops x ↔
      c.configPath? current root named = none ∧ x = .path .noDirectory ∨
      ∃ path, c.configPath? current root named = some path ∧
        ConfigFile.Stops ⟨path, openFile path, room⟩ x := by
  unfold configFile
  cases c.configPath? current root named with
  | some path => simp
  | none =>
    simp only [true_and, reduceCtorEq, false_and, exists_false, or_false]
    constructor
    · rintro (h | ⟨h, -⟩ | ⟨h, -, -⟩) <;> cases h
      rfl
    · rintro rfl
      exact .path rfl

end configuration

/-- The table that a command reads a request for tags from, if it asks for tags. -/
def requestTable? (c : Command) (t : Table) : Option Table :=
  match c with
  | .missingTags => some t
  | .addMissingTags => some (t.erase "element")
  | .addMissingTag => (t.given? "element").map fun _ => t
  | .removeTag => none
  | .dropTag => none

def request? (c : Command) (v : Validation) (t : Table) : Option TagsRequest :=
  (c.requestTable? t).bind fun u => (v.tags (.table u)).toOption

def removal? (c : Command) (v : Validation) (t : Table) : Option RemovalRequest :=
  match c with
  | .removeTag => (v.removal (.table t)).toOption
  | .dropTag => (v.removal (.table t)).toOption
  | _ => none

/-- What keeps a command from answering a table. -/
inductive Fails (c : Command) (v : Validation) (t : Table) (config : ConfigFile) :
    CommandFault → Prop
  | reading {r : TagsRequest} {x : ReadFault} (hr : c.request? v t = some r)
      (hx : config.Stops x) : c.Fails v t config (.reading x)
  | tags {r : TagsRequest} {p : Policy} {log : List Event} (hr : c.request? v t = some r)
      (hp : config.policy r.overrides = .ok (p, log))
      (ha : r.declaration.Unanswerable (r.step p)) : c.Fails v t config (.plan .unwritable)
  | removal {r : RemovalRequest} (hr : c.removal? v t = some r)
      (ha : r.declaration.Unanswerable (.remove r.index)) : c.Fails v t config (.plan .unwritable)

theorem request?_of_tags (hu : c.requestTable? t = some u) (hr : v.tags (.table u) = .ok r) :
    c.request? v t = some r := by
  rw [request?, hu, Option.bind_some, hr]
  rfl

theorem tags_of_request? (h : c.request? v t = some r) :
    ∃ u, c.requestTable? t = some u ∧ v.tags (.table u) = .ok r := by
  obtain ⟨u, hu, hr⟩ := Option.bind_eq_some_iff.1 h
  exact ⟨u, hu, eq_ok_of_toOption hr⟩

theorem run_of_requestTable? (h : c.requestTable? t = some u) :
    c.run v (.table t) config = answerTags v (.table u) config := by
  cases c with
  | missingTags | addMissingTags =>
    cases h
    rfl
  | addMissingTag =>
    obtain ⟨w, hw, rfl⟩ := Option.map_eq_some_iff.1 h
    simp only [run, requireTable, hw]
  | removeTag | dropTag => cases h

theorem removal_of_removal? {r : RemovalRequest} (h : c.removal? v t = some r) :
    v.removal (.table t) = .ok r := by
  cases c with
  | removeTag | dropTag => exact eq_ok_of_toOption h
  | _ => cases h

theorem run_of_removal? {r : RemovalRequest} (h : c.removal? v t = some r) :
    c.run v (.table t) config = answerRemoval v (.table t) := by
  cases c with
  | removeTag | dropTag => rfl
  | _ => cases h

theorem answerTags_of_stops {x : ReadFault} (hr : v.tags payload = .ok r) (hx : config.Stops x) :
    answerTags v payload config = .error (.reading x) := by
  simp only [answerTags, hr, ConfigFile.policy_eq_error.2 hx]

theorem answerTags_of_unanswerable (hr : v.tags payload = .ok r)
    (hp : config.policy r.overrides = .ok (p, log))
    (ha : r.declaration.Unanswerable (r.step p)) :
    answerTags v payload config = .error (.plan .unwritable) := by
  simp only [answerTags, hr, hp, planFor_of_unanswerable ha]

theorem answerRemoval_of_planRemove {r : RemovalRequest} {plan : Plan} {d : Declaration}
    (hr : v.removal payload = .ok r) (h : r.declaration.planRemove r.index = .ok (plan, d)) :
    answerRemoval v payload =
      .ok (plan.response, r.declaration.traceRemoval r.index plan) := by
  simp only [answerRemoval, hr, h]

theorem answerRemoval_of_unanswerable {r : RemovalRequest} (hr : v.removal payload = .ok r)
    (ha : r.declaration.Unanswerable (.remove r.index)) :
    answerRemoval v payload = .error (.plan .unwritable) := by
  have h : r.declaration.planRemove r.index = .error .unwritable :=
    Declaration.step_of_unanswerable ha
  simp only [answerRemoval, hr, h]

theorem run_of_fails {f : CommandFault} (h : c.Fails v t config f) :
    c.run v (.table t) config = .error f := by
  cases h with
  | reading hr hx =>
    obtain ⟨u, hu, htags⟩ := tags_of_request? hr
    rw [run_of_requestTable? hu, answerTags_of_stops htags hx]
  | tags hr hp ha =>
    obtain ⟨u, hu, htags⟩ := tags_of_request? hr
    rw [run_of_requestTable? hu, answerTags_of_unanswerable htags hp ha]
  | removal hr ha =>
    rw [run_of_removal? hr, answerRemoval_of_unanswerable (removal_of_removal? hr) ha]

def Answers (c : Command) (v : Validation) (t : Table) (config : ConfigFile) : Prop :=
  ∃ r log, c.run v (.table t) config = .ok (r, log) ∧ r.ErrorsAlone

theorem answers_of_refuse {e : Text} (h : c.run v (.table t) config = .refuse e) :
    c.Answers v t config := ⟨_, _, h, fun _ => rfl⟩

theorem fails_or_answers_of_requestTable? (hv : v.Lawful) (hu : c.requestTable? t = some u) :
    (∃ f, c.Fails v t config f) ∨ c.Answers v t config := by
  cases htags : v.tags (.table u) with
  | error e =>
    refine .inr (answers_of_refuse (e := e) ?_)
    rw [run_of_requestTable? hu, answerTags, htags]
  | ok r =>
    have hr := request?_of_tags hu htags
    cases hp : config.policy r.overrides with
    | error x => exact .inl ⟨_, .reading hr (ConfigFile.policy_eq_error.1 hp)⟩
    | ok out =>
      by_cases ha : r.declaration.Unanswerable (r.step out.1)
      · exact .inl ⟨_, .tags hr hp ha⟩
      · obtain ⟨plan, d, trace, hplan, hyields⟩ :=
          TagsRequest.exists_plan (hv.known _ _ htags) ha
        refine .inr ⟨plan.response, out.2 ++ trace, ?_, hyields.errorsAlone⟩
        rw [run_of_requestTable? hu, answerTags_of_planFor htags hplan hp]

theorem fails_or_answers_of_removal (hc : c = .removeTag ∨ c = .dropTag) :
    (∃ f, c.Fails v t config f) ∨ c.Answers v t config := by
  have hrun : c.run v (.table t) config = answerRemoval v (.table t) := by
    rcases hc with rfl | rfl <;> rfl
  cases hremoval : v.removal (.table t) with
  | error e =>
    refine .inr (answers_of_refuse (e := e) ?_)
    rw [hrun, answerRemoval, hremoval]
  | ok r =>
    have hr : c.removal? v t = some r := by
      rcases hc with rfl | rfl <;> exact congrArg Except.toOption hremoval
    by_cases ha : r.declaration.Unanswerable (.remove r.index)
    · exact .inl ⟨_, .removal hr ha⟩
    · obtain ⟨plan, d, hplan, hyields⟩ := Declaration.exists_planRemove ha
      refine .inr ⟨plan.response, r.declaration.traceRemoval r.index plan, ?_, hyields.errorsAlone⟩
      rw [hrun, answerRemoval_of_planRemove hremoval hplan]

theorem fails_or_answers (hv : v.Lawful) (c : Command) (t : Table) (config : ConfigFile) :
    (∃ f, c.Fails v t config f) ∨ c.Answers v t config := by
  cases hu : c.requestTable? t with
  | some u => exact fails_or_answers_of_requestTable? hv hu
  | none =>
    cases c with
    | missingTags | addMissingTags => cases hu
    | addMissingTag =>
      have hnone := Option.map_eq_none_iff.1 hu
      refine .inr (answers_of_refuse (e := "element is required for a single tag insertion") ?_)
      simp only [run, requireTable, hnone]
    | removeTag => exact fails_or_answers_of_removal (.inl rfl)
    | dropTag => exact fails_or_answers_of_removal (.inr rfl)

theorem run_eq_error_iff (hv : v.Lawful) {f : CommandFault} :
    c.run v (.table t) config = .error f ↔ c.Fails v t config f := by
  refine ⟨fun h => ?_, run_of_fails⟩
  rcases fails_or_answers hv c t config with ⟨g, hg⟩ | ⟨r, log, hrun, -⟩
  · cases h.symm.trans (run_of_fails hg)
    exact hg
  · cases h.symm.trans hrun

theorem exists_defect_iff (hv : v.Lawful) :
    (∃ d, c.run v payload config = .error (.ofDefect d)) ↔ ∀ t, payload ≠ .table t := by
  constructor
  · rintro ⟨d, h⟩ t rfl
    cases (run_eq_error_iff hv).1 h
  · intro h
    cases payload with
    | table t => exact absurd rfl (h t)
    | _ => exact ⟨_, rfl⟩

/-- A payload that is no table is a broken contract. A table has an answer, unless it holds a
request for tags and the configuration stops it, or a request that is to be refused and cannot be;
an answer with errors has nothing else. The checks on positions pass: those of the insertions of a
plan and that of a removal. -/
theorem run_answers (v : Validation) (hv : v.Lawful) (c : Command) (config : ConfigFile) :
    (∀ payload, (∃ d, c.run v payload config = .error (.ofDefect d)) ↔
      ∀ t, payload ≠ .table t) ∧
    ∀ t,
      (∀ f, c.run v (.table t) config = .error f ↔ c.Fails v t config f) ∧
      (∀ a log, c.run v (.table t) config = .ok (a, log) → a.ErrorsAlone) ∧
      (∀ r p, c.request? v t = some r → ¬ r.declaration.Unanswerable (r.step p) →
        ∃ plan d trace, planFor r p = .ok (plan, d, trace) ∧
          (∀ log, config.policy r.overrides = .ok (p, log) →
            c.run v (.table t) config = .ok (plan.response, log ++ trace)) ∧
          r.declaration.block.insertEach plan.insertions = .ok d.block) ∧
      ∀ r, c.removal? v t = some r → ¬ r.declaration.Unanswerable (.remove r.index) →
        ∃ plan d, r.declaration.planRemove r.index = .ok (plan, d) ∧
          c.run v (.table t) config =
            .ok (plan.response, r.declaration.traceRemoval r.index plan) ∧
          (plan.errors = [] → (r.declaration.tags.length : Int) ≤ Block.greatestIndex →
            ∃ tag, r.declaration.block.remove r.index = .ok (tag, d.block)) := by
  refine ⟨fun payload => exists_defect_iff hv,
    fun t => ⟨fun f => run_eq_error_iff hv, ?_, ?_, ?_⟩⟩
  · intro a log h
    rcases fails_or_answers hv c t config with ⟨f, hf⟩ | ⟨a', log', hrun, halone⟩
    · cases h.symm.trans (run_of_fails hf)
    · cases h.symm.trans hrun
      exact halone
  · intro r p hr ha
    obtain ⟨u, hu, htags⟩ := tags_of_request? hr
    obtain ⟨plan, d, trace, hplan, hyields⟩ := TagsRequest.exists_plan (hv.known _ _ htags) ha
    refine ⟨plan, d, trace, hplan, fun log hp => ?_, hyields.insertEach (r.step_ne_remove p)⟩
    rw [run_of_requestTable? hu, answerTags_of_planFor htags hplan hp]
  · intro r hr ha
    obtain ⟨plan, d, hplan, -⟩ := Declaration.exists_planRemove ha
    refine ⟨plan, d, hplan, ?_, Declaration.planRemove_removes hplan⟩
    rw [run_of_removal? hr, answerRemoval_of_planRemove (removal_of_removal? hr) hplan]

/-- The tags of the loose request, with a configuration that is not there. -/
theorem run_answers_loose : ∃ (plan : Plan) (trace : List Event) (d : Declaration) (b : Block),
    missingTags.run .checked (.table loose) ⟨"doctags.toml", .missing, 0⟩ =
      .ok (plan.response, trace) ∧
    plan.response.ErrorsAlone ∧ b.insertEach plan.insertions = .ok d.block ∧
    b.tags.length = 2 ∧ plan.insertions.length = 3 := by
  obtain ⟨-, htable⟩ := run_answers .checked Validation.checked_lawful .missingTags
    ⟨"doctags.toml", .missing, 0⟩
  obtain ⟨-, halone, hplans, -⟩ := htable loose
  obtain ⟨plan, d, trace, hplan, hrun, hinsert⟩ := hplans _ {} rfl id
  have hanswer := hrun [] rfl
  refine ⟨plan, trace, d, _, hanswer, halone _ _ hanswer, hinsert, rfl, ?_⟩
  cases hplan
  rfl

/-- A file that gives `x` a number of `n` ones. -/
def ones (n : Nat) : List UInt8 := [0x78, 0x3D] ++ List.replicate n 0x31

theorem readText_ones (n : Nat) : readText (ones n) = .ok ('x' :: '=' :: List.replicate n '1') := by
  have hascii : ∀ b ∈ ones n, b < 0x80 := by
    intro b hb
    simp only [ones, List.cons_append, List.nil_append, List.mem_cons, List.mem_replicate] at hb
    rcases hb with rfl | rfl | ⟨-, rfl⟩ <;> decide
  have hchars : (ones n).map (fun b => Char.ofNat b.toNat) =
      'x' :: '=' :: List.replicate n '1' := by
    rw [ones, List.map_append, List.map_replicate]
    rfl
  rw [readText, Text.Utf8.decode, Text.Utf8.decodeFrom_of_ascii hascii, hchars]
  refine congrArg Except.ok (Text.unifyBreaks_of_not_mem ?_)
  simp [List.mem_replicate]

theorem stops_of_ones {n : Nat} (hn : Text.digitLimit < n)
    (h : config.reading = .content (ones n)) : config.Stops (.excess (.digits n)) := by
  have hdigits : ∀ c ∈ List.replicate n '1', c.isDigit = true := by
    intro c hc
    rw [(List.mem_replicate.1 hc).2]
    rfl
  have hhead : (List.replicate n '1').head? ≠ some '0' := by
    rw [List.head?_replicate]
    split
    · exact fun h => by cases h
    · decide
  have hread := Toml.read_of_long config.room hdigits hhead (by rwa [List.length_replicate])
  rw [List.length_replicate] at hread
  exact .excess h (readText_ones n) hread

theorem run_stops_at_ones :
    (∃ s, readText (ones 4301) = .ok s) ∧ (∃ r, request? .missingTags .checked loose = some r) ∧
    ∀ room, missingTags.run .checked (.table loose) ⟨"doctags.toml", .content (ones 4301), room⟩ =
      .error (.reading (.excess (.digits 4301))) :=
  ⟨⟨_, readText_ones 4301⟩, ⟨_, rfl⟩,
    fun _ => run_of_fails (.reading rfl (stops_of_ones (by decide) rfl))⟩

end Command

end DocComment

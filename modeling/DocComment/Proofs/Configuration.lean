import DocComment.Proofs.Answering
import DocComment.Proofs.Encoding

/-! The policy that comes of a configuration file (`ConfigFile.policy_of_reading`). A file that holds
no tables leaves the choices of the request as they are, and one that holds tables has its section
about tags below them, whatever that is. A file is not passed over where no file can have its path,
where its bytes are no UTF-8, and where its text goes beyond the sizes that are read. -/

namespace DocComment

open Data

theorem Data.Table.given?_of_nodup {t : Table} (k : Text) (h : (t.map Prod.fst).Nodup) :
    t.given? k = (t.get? k).filter fun v => !v.isNull := by
  induction t with
  | nil => rfl
  | cons e r ih =>
    rw [List.map_cons, List.nodup_cons] at h
    obtain ⟨hfresh, hr⟩ := h
    rw [given?_cons, get?_cons, ih hr]
    by_cases hk : k = e.1
    · subst hk
      -- no entry below this one has the key
      have hnone : get? r e.1 = none := by
        refine List.lookup_eq_none_iff.2 fun p hp => ?_
        rw [bne_iff_ne]
        exact fun heq => hfresh (List.mem_map.2 ⟨p, hp, heq.symm⟩)
      cases hv : e.2.isNull <;> simp [Option.filter, hv, hnone]
    · simp [hk]

theorem readChoice_filter_isNull (v : Option Value) (unset : Bool) :
    readChoice (v.filter fun v => !v.isNull) unset = readChoice v unset := by
  cases v with
  | none => rfl
  | some v => cases v <;> rfl

theorem Policy.ofSection_merge_nil {t : Table} (h : (t.map Prod.fst).Nodup) :
    Policy.ofSection (Table.merge t []) = Policy.ofSection t := by
  have hget : ∀ k, (Table.merge t []).get? k = (t.get? k).filter fun v => !v.isNull := by
    intro k
    rw [Table.get?_merge, Table.given?_of_nodup k h]
    cases Option.filter _ (t.get? k) <;> rfl
  unfold Policy.ofSection
  simp only [hget, readChoice_filter_isNull]
  cases t.get? "stub_placeholder" with
  | none => rfl
  | some v => cases v <;> rfl

theorem readText_eq_ok_iff {bytes : List UInt8} {text : List Char} : readText bytes = .ok text ↔
    ∃ cs, bytes = Text.Utf8.encode cs ∧ text = Text.unifyBreaks cs := by
  unfold readText
  constructor
  · intro h
    cases hcs : Text.Utf8.decode bytes with
    | error e =>
      rw [hcs] at h
      cases h
    | ok cs =>
      rw [hcs] at h
      exact ⟨cs, Text.Utf8.decode_eq_ok_iff.1 hcs, (Except.ok.inj h).symm⟩
  · rintro ⟨cs, hcs, rfl⟩
    rw [Text.Utf8.decode_eq_ok_iff.2 hcs]

namespace ConfigFile

def HasText (f : ConfigFile) (text : List Char) : Prop :=
  ∃ cs, f.reading = .content (Text.Utf8.encode cs) ∧ text = Text.unifyBreaks cs

/-- The tables of a file whose text has the grammar of tables. -/
def Holds (f : ConfigFile) (t : Table) : Prop :=
  ∃ text, f.HasText text ∧ Toml.read f.room text = .ok t

variable {f : ConfigFile} {t overrides : Table} {text : List Char} {log : List Event}

theorem hasText_iff : f.HasText text ↔
    ∃ bytes, f.reading = .content bytes ∧ readText bytes = .ok text := by
  constructor
  · rintro ⟨cs, hcs, htext⟩
    exact ⟨_, hcs, readText_eq_ok_iff.2 ⟨cs, rfl, htext⟩⟩
  · rintro ⟨bytes, hbytes, hread⟩
    obtain ⟨cs, rfl, htext⟩ := readText_eq_ok_iff.1 hread
    exact ⟨cs, hbytes, htext⟩

structure Readable (f : ConfigFile) : Prop where
  path : ∀ x, f.reading ≠ .unusable x
  encoded : ∀ bytes, f.reading = .content bytes → ∃ cs, bytes = Text.Utf8.encode cs
  bounded : ∀ text e, f.HasText text → Toml.read f.room text ≠ .error (.excess e)

theorem readable_iff : f.Readable ↔ ∀ x, ¬ f.Stops x := by
  constructor
  · rintro ⟨hpath, hencoded, hbounded⟩ x (h | ⟨hbytes, hx⟩ | ⟨hbytes, htext, hx⟩)
    · exact hpath _ h
    · obtain ⟨cs, hcs⟩ := hencoded _ hbytes
      cases hx.symm.trans (readText_eq_ok_iff.2 ⟨cs, hcs, rfl⟩)
    · exact hbounded _ _ (hasText_iff.2 ⟨_, hbytes, htext⟩) hx
  · intro h
    refine ⟨fun x hx => h _ (.path hx), fun bytes hbytes => ?_, fun text e htext hx => ?_⟩
    · cases hread : readText bytes with
      | error x => exact absurd (.text hbytes hread) (h x)
      | ok text =>
        obtain ⟨cs, hcs, -⟩ := readText_eq_ok_iff.1 hread
        exact ⟨cs, hcs⟩
    · obtain ⟨bytes, hbytes, hread⟩ := hasText_iff.1 htext
      exact h _ (.excess hbytes hread hx)

theorem exists_policy_iff : (∃ a, f.policy overrides = .ok a) ↔ f.Readable := by
  rw [readable_iff]
  constructor
  · rintro ⟨a, ha⟩ x hx
    cases ha.symm.trans (policy_eq_error.2 hx)
  · intro h
    cases hp : f.policy overrides with
    | error x => exact absurd (policy_eq_error.1 hp) (h x)
    | ok a => exact ⟨a, rfl⟩

theorem Holds.tables (h : f.Holds t) : f.tables = .ok (t, []) := by
  obtain ⟨text, htext, hread⟩ := h
  obtain ⟨bytes, hbytes, htext⟩ := hasText_iff.1 htext
  simp only [ConfigFile.tables, hbytes, htext, tablesOf, hread]

theorem Holds.policy (h : f.Holds t) : f.policy overrides =
    .ok (Policy.ofSection (Table.merge overrides (tagSection t)), []) := by
  rw [ConfigFile.policy, h.tables]
  rfl

theorem holds_or_eq_nil (h : f.tables = .ok (t, log)) : f.Holds t ∨ t = [] := by
  unfold tables at h
  split at h
  next =>
    cases h
    exact .inr rfl
  next bytes hbytes =>
    split at h
    next text htext =>
      unfold tablesOf at h
      split at h
      next u hread =>
        cases h
        exact .inl ⟨text, hasText_iff.2 ⟨bytes, hbytes, htext⟩, hread⟩
      next =>
        cases h
        exact .inr rfl
      next => cases h
    next => cases h
  next => cases h
  next =>
    cases h
    exact .inr rfl

theorem Readable.policy (h : f.Readable) (hnone : ∀ t, ¬ f.Holds t)
    (hkeys : (overrides.map Prod.fst).Nodup) :
    ∃ log, f.policy overrides = .ok (Policy.ofSection overrides, log) := by
  obtain ⟨⟨p, log⟩, hp⟩ := exists_policy_iff.2 h
  obtain ⟨⟨t, log⟩, ht, heq⟩ := map_eq_ok.1 hp
  cases heq
  obtain rfl := (holds_or_eq_nil ht).resolve_left (hnone t)
  rw [hp, ← Policy.ofSection_merge_nil hkeys]
  exact ⟨log, rfl⟩

/-- A file gives a policy exactly if it is readable. Whatever the section about tags is, in a file
that holds tables, the choices of the request stand above it; a file that holds none leaves them as
they are, and so does an empty one. -/
theorem policy_of_reading (f : ConfigFile) (hkeys : (overrides.map Prod.fst).Nodup) :
    ((∃ a, f.policy overrides = .ok a) ↔ f.Readable) ∧
    (∀ t, f.Holds t → f.policy overrides =
      .ok (Policy.ofSection (Table.merge overrides (tagSection t)), [])) ∧
    (f.Readable → (∀ t, ¬ f.Holds t) →
      ∃ log, f.policy overrides = .ok (Policy.ofSection overrides, log)) ∧
    policy ⟨f.path, .content [], f.room⟩ overrides = .ok (Policy.ofSection overrides, []) := by
  refine ⟨exists_policy_iff, fun t ht => ht.policy, fun h hnone => h.policy hnone hkeys, ?_⟩
  have hempty : Holds ⟨f.path, .content [], f.room⟩ [] := ⟨[], ⟨[], rfl, rfl⟩, rfl⟩
  have hsection : tagSection [] = [] := rfl
  rw [hempty.policy, hsection, Policy.ofSection_merge_nil hkeys]

/-- A key alone is no table, and a null in the request is no choice. -/
theorem policy_of_reading_malformed : (∀ t, ¬ Holds ⟨"doctags.toml", .content [0x78], 100⟩ t) ∧
    ∃ log, policy ⟨"doctags.toml", .content [0x78], 100⟩
      [("method_type_parameters", .null), ("stub_placeholder", .text "?")] =
        .ok ({ stubPlaceholder := "?" }, log) := by
  have hkeys : ([("method_type_parameters", .null), ("stub_placeholder", .text "?")] :
      Table).map Prod.fst |>.Nodup := by decide
  obtain ⟨hiff, -, hpolicy, -⟩ := policy_of_reading ⟨"doctags.toml", .content [0x78], 100⟩ hkeys
  have hnone : ∀ t, ¬ Holds ⟨"doctags.toml", .content [0x78], 100⟩ t := by
    intro t h
    cases h.tables
  exact ⟨hnone, hpolicy (hiff.1 ⟨_, rfl⟩) hnone⟩

theorem policy_of_unencoded : (∀ cs, [0xFF] ≠ Text.Utf8.encode cs) ∧
    ∀ room a, policy ⟨"doctags.toml", .content [0xFF], room⟩ [] ≠ .ok a := by
  constructor
  · intro cs h
    cases Text.Utf8.decode_eq_ok_iff.2 h
  · intro room a h
    cases h

end ConfigFile

end DocComment

import DocComment.Proofs.Configuration
import DocComment.Proofs.Validation

/-! Layers of choices. A null in a layer leaves the choice to the layers beneath it, also where a
merge has left it there, so layers may be merged in any grouping (`Table.get?_merge_merge`). A null
at the bottom is a value like any other. The layer of a request lies over the section about tags: it
has the two flags and nothing else (`TagsRequest.given?_overrides`), whatever else the payload
says (`TagsRequest.read_set`). -/

namespace DocComment

open Data

namespace Data.Table

variable {p q d : Table} {k : Text}

theorem get?_merge_merge :
    (merge p (merge q d)).get? k = (merge (merge p q) d).get? k := by
  rw [get?_merge, get?_merge, get?_merge, given?_merge]
  cases p.given? k <;> rfl

theorem given?_eq_none_iff (hp : (p.map Prod.fst).Nodup) :
    p.given? k = none ↔ p.get? k = none ∨ p.get? k = some .null := by
  rw [given?_of_nodup k hp]
  cases p.get? k with
  | none => simp
  | some v => cases v <;> simp [Option.filter, Value.isNull]

theorem get?_merge_eq_none_iff (hp : (p.map Prod.fst).Nodup) : (merge p d).get? k = none ↔
    d.get? k = none ∧ (p.get? k = none ∨ p.get? k = some .null) := by
  rw [get?_merge, ← given?_eq_none_iff hp]
  cases p.given? k <;> simp

end Data.Table

theorem readChoice_bool_or (b : Option Bool) (v : Option Value) (unset : Bool) :
    readChoice (b.map Value.bool <|> v) unset = b.getD (readChoice v unset) := by
  cases b <;> rfl

namespace TagsRequest

variable {r : TagsRequest} {s t u : Table} {k : Text}

theorem given?_overrides (r : TagsRequest) (k : Text) : r.overrides.given? k =
    if k = "method_type_parameters" then r.methodTypeParameters.map Value.bool
    else if k = "qualified_exception_names" then r.qualifiedExceptionNames.map Value.bool
    else none := by
  have hne : ("method_type_parameters" : Text) ≠ "qualified_exception_names" := by decide
  unfold overrides
  rw [Table.given?_cons, Table.given?_cons]
  by_cases hm : k = "method_type_parameters"
  · rw [if_pos hm]
    cases r.methodTypeParameters <;> simp [hm, hne, Value.isNull, Table.given?]
  · rw [if_neg hm]
    cases r.qualifiedExceptionNames <;> simp [hm, Value.isNull, Table.given?]

/-- The policy of a request over a section about tags. The section is read for each flag that the
request leaves alone, and for the placeholder. -/
def policyOver (r : TagsRequest) (s : Table) : Policy where
  methodTypeParameters :=
    r.methodTypeParameters.getD (readChoice (s.get? "method_type_parameters") true)
  qualifiedExceptionNames :=
    r.qualifiedExceptionNames.getD (readChoice (s.get? "qualified_exception_names") false)
  stubPlaceholder := (Policy.ofSection s).stubPlaceholder

theorem ofSection_merge_overrides :
    Policy.ofSection (Table.merge r.overrides s) = r.policyOver s := by
  have hmethod : r.overrides.given? "method_type_parameters" =
      r.methodTypeParameters.map Value.bool := by
    rw [given?_overrides, if_pos rfl]
  have hqualified : r.overrides.given? "qualified_exception_names" =
      r.qualifiedExceptionNames.map Value.bool := by
    rw [given?_overrides, if_neg (by decide), if_pos rfl]
  have hplaceholder : r.overrides.given? "stub_placeholder" = none := by
    rw [given?_overrides, if_neg (by decide), if_neg (by decide)]
  unfold Policy.ofSection
  rw [Table.get?_merge, Table.get?_merge, Table.get?_merge, hmethod, hqualified, hplaceholder,
    readChoice_bool_or, readChoice_bool_or]
  rfl

end TagsRequest

namespace ConfigFile

/-- Layers may be merged in any grouping. Where a table has one entry for each key, a key has the
value of the uppermost layer that gives it one other than null, and else what the lowest layer has
for it; only a key that the lowest layer lacks can be absent. So a request has its own flags where
it gives them, over whatever section about tags, and those that the section tells where it gives
none. The placeholder is that of the section: a request has none, and a payload that names one is
the same request, whatever checks it, as long as these look at the fields of a request only. -/
theorem policy_of_layers :
    (∀ (p q d : Table) (k : Text),
      (Table.merge p (Table.merge q d)).get? k = (Table.merge (Table.merge p q) d).get? k ∧
      ((p.map Prod.fst).Nodup → (q.map Prod.fst).Nodup →
        (Table.merge p (Table.merge q d)).get? k = ((p.get? k).filter (fun v => !v.isNull) <|>
          (q.get? k).filter (fun v => !v.isNull) <|> d.get? k) ∧
        ((Table.merge p (Table.merge q d)).get? k = none ↔ d.get? k = none ∧
          (p.get? k = none ∨ p.get? k = some .null) ∧
          (q.get? k = none ∨ q.get? k = some .null)))) ∧
    (∀ (r : TagsRequest) (s : Table), Policy.ofSection (Table.merge r.overrides s) =
      r.policyOver s) ∧
    (∀ (r : TagsRequest) (f : ConfigFile), f.policy r.overrides =
      f.tables.map fun (t, log) => (r.policyOver (tagSection t), log)) ∧
    (∀ (t : Table) (v : Value), TagsRequest.read (.table (t.set "stub_placeholder" v)) =
      TagsRequest.read (.table t)) ∧
    ∀ (checks : Validation), checks.Lawful → ∀ (t : Table) (v : Value),
      (checks.tags (.table (t.set "stub_placeholder" v))).toOption =
        (checks.tags (.table t)).toOption := by
  refine ⟨fun p q d k => ⟨Table.get?_merge_merge, fun hp hq => ⟨?_, ?_⟩⟩, fun r s => ?_,
    fun r f => ?_, fun t v => ?_, fun checks hchecks t v => ?_⟩
  · rw [Table.get?_merge, Table.get?_merge, Table.given?_of_nodup k hp, Table.given?_of_nodup k hq]
  · rw [Table.get?_merge_eq_none_iff hp, Table.get?_merge_eq_none_iff hq, and_right_comm, and_assoc]
  · exact TagsRequest.ofSection_merge_overrides
  · simp only [policy, TagsRequest.ofSection_merge_overrides]
  · exact TagsRequest.read_set (by decide) t v
  · exact hchecks.fieldwise _ _ (TagsRequest.get?_set_of_notMem (by decide) t v)

def upperLayer : Table :=
  [("method_type_parameters", .null), ("qualified_exception_names", .bool true)]

def lowerLayer : Table :=
  [("stub_placeholder", .null), ("method_type_parameters", .null),
    ("qualified_exception_names", .null)]

def choosing : TagsRequest :=
  { declaration := { kind := .method }, qualifiedExceptionNames := some true }

theorem policy_of_layers_nulled :
    (upperLayer.map Prod.fst).Nodup ∧ (lowerLayer.map Prod.fst).Nodup ∧
    (Table.merge (Table.merge upperLayer lowerLayer) [("method_type_parameters", .null)]).get?
      "method_type_parameters" = some .null ∧
    (Table.merge (Table.merge upperLayer lowerLayer) [("qualified_exception_names", .int 0)]).get?
      "qualified_exception_names" = some (.bool true) ∧
    (Table.merge (Table.merge upperLayer lowerLayer) []).get? "stub_placeholder" = none ∧
    Policy.ofSection (Table.merge choosing.overrides
      [("method_type_parameters", .text "off"), ("qualified_exception_names", .bool false),
        ("stub_placeholder", .text "?")]) = ⟨false, true, "?"⟩ ∧
    policy ⟨"doctags.toml", .missing, 100⟩ choosing.overrides = .ok (⟨true, true, []⟩, []) ∧
    (Validation.checked.tags (.table (loose.set "stub_placeholder" (.int 1)))).toOption =
      (Validation.checked.tags (.table loose)).toOption := by
  have hupper : (upperLayer.map Prod.fst).Nodup := by decide
  have hlower : (lowerLayer.map Prod.fst).Nodup := by decide
  obtain ⟨hlayers, hsection, hfile, -, hrequest⟩ := policy_of_layers
  have hvalue := fun d k => ((hlayers upperLayer lowerLayer d k).2 hupper hlower).1
  have habsent := fun d k => ((hlayers upperLayer lowerLayer d k).2 hupper hlower).2
  refine ⟨hupper, hlower, ?_, ?_, ?_, ?_, ?_, hrequest _ Validation.checked_lawful loose _⟩
  · rw [← (hlayers _ _ _ _).1, hvalue]
    rfl
  · rw [← (hlayers _ _ _ _).1, hvalue]
    rfl
  · rw [← (hlayers _ _ _ _).1, habsent]
    exact ⟨rfl, .inl rfl, .inr rfl⟩
  · rw [hsection]
    rfl
  · rw [hfile]
    rfl

end ConfigFile

end DocComment

import DocComment.Request

/-! What the checks of this library have to do with their payloads: the declaration of a request is
of a known kind, and a request is its fields. No other fact about them is used where they are a
parameter (`Validation.Lawful`). -/

namespace DocComment

open Data

namespace Check

section valid
variable {v : Value} {place : List String}

theorem declaration_eq_valid {d : Declaration} (h : declaration place v = .valid d) :
    d.kind ∈ DeclarationKind.known ∧ ∃ t, v = .table t ∧
      optional "doc" (nullable block) none place t = .valid d.doc := by
  obtain ⟨t, rfl, hfields⟩ := model_eq_valid.1 h
  simp only [Checked.seq_eq_valid, Checked.fmap_eq_valid] at hfields
  obtain ⟨_, ⟨_, ⟨_, ⟨_, ⟨_, ⟨_, ⟨_, ⟨k, hk, rfl⟩, _, -, rfl⟩, _, -, rfl⟩, _, -, rfl⟩, _, -, rfl⟩,
    _, -, rfl⟩, _, -, rfl⟩, doc, hdoc, rfl⟩ := hfields
  obtain ⟨w, -, hw⟩ := required_eq_valid.1 hk
  refine ⟨?_, t, rfl, hdoc⟩
  simpa using mem_of_oneOf_eq_valid hw

theorem block_eq_valid {b : Block} (h : block place v = .valid b) :
    ∃ t ws, v = .table t ∧ b.tags = ws.map WrittenTag.read ∧
      optional "tags" (listOf writtenTag) [] place t = .valid ws := by
  obtain ⟨t, rfl, hfields⟩ := model_eq_valid.1 h
  simp only [Checked.seq_eq_valid, Checked.fmap_eq_valid] at hfields
  obtain ⟨_, ⟨_, -, rfl⟩, ws, hws, rfl⟩ := hfields
  exact ⟨t, ws, rfl, rfl, hws⟩

end valid

section congr
variable {α : Type} {c : Check α} {place : List String} {name : String} {t u : Table}

theorem required_congr (h : t.get? name = u.get? name) :
    required name c place t = required name c place u := by
  unfold required
  rw [h]
  rfl

theorem optional_congr {unset : α} (h : t.get? name = u.get? name) :
    optional name c unset place t = optional name c unset place u := by
  unfold optional
  rw [h]

end congr

end Check

namespace TagsRequest

variable {payload : Value} {t u : Table} {k : Text} {r : TagsRequest}

theorem declaration_of_read (hr : read payload = .ok r) : ∃ t : Table, payload = .table t ∧
    ∃ v, t.get? "declaration" = some v ∧
      Check.declaration ["declaration"] v = .valid r.declaration := by
  have hvalid : Check.tagsRequest [] payload = .valid r := by
    unfold read Check.run at hr
    split at hr
    next hv =>
      cases hr
      exact hv
    next => cases hr
  obtain ⟨t, rfl, hfields⟩ := Check.model_eq_valid.1 hvalid
  simp only [Checked.seq_eq_valid, Checked.fmap_eq_valid] at hfields
  obtain ⟨_, ⟨_, ⟨_, ⟨_, ⟨d, hd, rfl⟩, _, -, rfl⟩, _, -, rfl⟩, _, -, rfl⟩, _, -, rfl⟩ := hfields
  exact ⟨t, rfl, Check.required_eq_valid.1 hd⟩

theorem known_of_read (hr : read payload = .ok r) :
    r.declaration.kind ∈ DeclarationKind.known := by
  obtain ⟨t, -, v, -, hvalid⟩ := declaration_of_read hr
  exact (Check.declaration_eq_valid hvalid).1

def fields : List Text :=
  ["declaration", "element", "indent", "method_type_parameters", "qualified_exception_names"]

theorem read_congr (h : ∀ k ∈ fields, t.get? k = u.get? k) :
    read (.table t) = read (.table u) := by
  simp only [fields, List.forall_mem_cons] at h
  obtain ⟨hdeclaration, helement, hindent, hmethod, hqualified, -⟩ := h
  have hcheck : Check.tagsRequest [] (.table t) = Check.tagsRequest [] (.table u) := by
    simp only [Check.tagsRequest, Check.model]
    rw [Check.required_congr hdeclaration, Check.optional_congr helement,
      Check.optional_congr hindent, Check.optional_congr hmethod, Check.optional_congr hqualified]
  rw [read, read, Check.run, Check.run, hcheck]

theorem get?_set_of_notMem (hk : k ∉ fields) (t : Table) (v : Value) :
    ∀ j ∈ fields, (t.set k v).get? j = t.get? j := by
  intro j hj
  rw [Table.get?_set, if_neg]
  rintro rfl
  exact hk hj

theorem read_set (hk : k ∉ fields) (t : Table) (v : Value) :
    read (.table (t.set k v)) = read (.table t) :=
  read_congr (get?_set_of_notMem hk t v)

end TagsRequest

namespace Validation

/-- A validation that knows the kinds of declarations and looks at the fields of a request only. The
texts of its faults may quote the payload, so they are left open. -/
structure Lawful (v : Validation) : Prop where
  known : ∀ payload r, v.tags payload = .ok r → r.declaration.kind ∈ DeclarationKind.known
  fieldwise : ∀ t u : Table, (∀ k ∈ TagsRequest.fields, t.get? k = u.get? k) →
    (v.tags (.table t)).toOption = (v.tags (.table u)).toOption

theorem checked_lawful : checked.Lawful where
  known _ _ hr := TagsRequest.known_of_read hr
  fieldwise _ _ h := congrArg Except.toOption (TagsRequest.read_congr h)

end Validation

end DocComment

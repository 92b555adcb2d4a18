import DocComment.Text.Blank
import DocComment.Text.Name

/-! Block tags: their kinds, the canonical order of kinds, and the name a tag documents. Two tags
with the same `Tag.key` are alike for every decision on detection and placement. -/

namespace DocComment

inductive TagKind
  | author | version | param | returns | throws | exception | see | since | serial | deprecated
  | other
  deriving DecidableEq, Inhabited

def TagKind.word : TagKind → String
  | .author => "author"
  | .version => "version"
  | .param => "param"
  | .returns => "return"
  | .throws => "throws"
  | .exception => "exception"
  | .see => "see"
  | .since => "since"
  | .serial => "serial"
  | .deprecated => "deprecated"
  | .other => "other"

def TagKind.named : List TagKind :=
  [.author, .version, .param, .returns, .throws, .exception, .see, .since, .serial, .deprecated]

/-- The kind of a tag written `name`, with or without its `@`, in any mix of cases. -/
def TagKind.ofName (name : Text) : TagKind :=
  let word := name.trim.dropAts.lower
  (named.find? fun k => k.word = word).getD .other

/-- `@exception` is another spelling of `@throws`. -/
def TagKind.canonical : TagKind → TagKind
  | .exception => .throws
  | k => k

/-- The place of a kind in the canonical order; tags of unknown kinds come last. -/
def TagKind.rank : TagKind → Nat
  | .author => 0
  | .version => 1
  | .param => 2
  | .returns => 3
  | .throws => 4
  | .exception => 4
  | .see => 5
  | .since => 6
  | .serial => 7
  | .deprecated => 8
  | .other => 9

theorem TagKind.rank_canonical (k : TagKind) : k.canonical.rank = k.rank := by cases k <;> rfl

theorem TagKind.rank_inj {a b : TagKind} : a.rank = b.rank ↔ a.canonical = b.canonical := by
  cases a <;> cases b <;> decide

inductive Fragment
  | identifier (name : Text)
  | text (content : Text)
  deriving DecidableEq, Inhabited

def Fragment.content : Fragment → Text
  | .identifier n => n
  | .text s => s

/-- `label` is the spelling of a tag of kind `other`. -/
structure Tag where
  kind : TagKind
  label : Text := []
  fragments : List Fragment := []
  deriving DecidableEq, Inhabited

namespace Tag

def name (t : Tag) : Text :=
  if t.kind = .other ∧ t.label ≠ [] then t.label.dropAts else t.kind.word

/-- The type parameter that a text fragment and those after it spell: `<T>` in one piece, or `<`,
the identifier `T` and `>`. -/
def genericArgument (s : Text) (rest : List Fragment) : Option Text :=
  if s = "<" then
    match rest with
    | .identifier n :: .text c :: _ => if c = ">" then some n.simpleName.angled else none
    | _ => none
  else if s.isAngled then some s else none

/-- The name of what the tag documents: a simple name, or a type parameter in brackets. -/
def argument (t : Tag) : Option Text :=
  match t.fragments with
  | [] => none
  | .identifier n :: _ => some n.simpleName
  | .text s :: rest => if t.kind = .param then genericArgument s rest else none

/-- All that detection and placement look at in a tag. -/
def key (t : Tag) : TagKind × Option Text := (t.kind.canonical, t.argument)

end Tag

/-- A tag as a client writes it, its kind not yet told from its name. -/
structure WrittenTag where
  name : Text
  fragments : List Fragment := []
  deriving DecidableEq, Inhabited

def WrittenTag.read (w : WrittenTag) : Tag :=
  let kind := TagKind.ofName w.name
  { kind, label := if kind = .other then w.name.dropAts else [], fragments := w.fragments }

def Tag.written (t : Tag) : WrittenTag := { name := t.name, fragments := t.fragments }

end DocComment

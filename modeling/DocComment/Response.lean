import DocComment.Data.Value
import DocComment.Plan

/-! The answer to a request, in the terms of the client: tags by their written names. -/

namespace DocComment

structure WrittenInsertion where
  index : Nat
  tag : WrittenTag
  rendered : Text
  deriving DecidableEq, Inhabited

structure Response where
  label : Text := []
  insertions : List WrittenInsertion := []
  tags : List WrittenTag := []
  stub : Option Text := none
  warnings : List Text := []
  errors : List Text := []
  deriving DecidableEq, Inhabited

def Insertion.written (i : Insertion) : WrittenInsertion :=
  { index := i.index, tag := i.tag.written, rendered := i.tag.render }

def Plan.response (p : Plan) : Response where
  label := p.label
  insertions := p.insertions.map Insertion.written
  tags := p.tags.map Tag.written
  stub := p.stub
  warnings := p.warnings
  errors := p.errors

open Data

def Fragment.value : Fragment → Value
  | .identifier n => .table [("kind", .text "identifier"), ("value", .text n)]
  | .text s => .table [("kind", .text "text"), ("value", .text s)]

def WrittenTag.value (t : WrittenTag) : Value :=
  .table [("name", .text t.name), ("fragments", .list (t.fragments.map Fragment.value))]

def WrittenInsertion.value (i : WrittenInsertion) : Value :=
  .table [("index", .int i.index), ("tag", i.tag.value), ("rendered", .text i.rendered)]

def Response.table (r : Response) : Table :=
  [("label", .text r.label), ("insertions", .list (r.insertions.map WrittenInsertion.value)),
    ("tags", .list (r.tags.map WrittenTag.value)), ("stub", (r.stub.map Value.text).getD .null),
    ("warnings", .list (r.warnings.map .text)), ("errors", .list (r.errors.map .text))]

end DocComment

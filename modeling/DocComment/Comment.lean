import DocComment.Placement
import DocComment.Text.Line

/-! The written form of a doc comment: one frame of `/**`, ` * ` and ` */` around the lines of a
block or of a stub, and the indentation that puts the comment in front of a declaration. -/

namespace DocComment

/-- A line inside the frame; an empty one shows no blank after its star. -/
def framedLine (line : Text) : Text := if line = [] then " *\n" else " * " ++ line ++ "\n"

def framed (ls : List Text) : Text := "/**\n" ++ ls.flatMap framedLine ++ " */\n"

namespace Tag

/-- A fragment after the one written last: no blank follows `<` or comes before `>`, and an empty
fragment leaves no trace. -/
def append (acc : Text × Text) (f : Fragment) : Text × Text :=
  let piece := f.content
  if piece = [] then acc
  else if acc.2 = "<" ∨ piece = ">" then (acc.1 ++ piece, piece)
  else (acc.1 ++ " " ++ piece, piece)

def render (t : Tag) : Text := (t.fragments.foldl append ("@" ++ t.name, [])).1

section append
variable {acc : Text × Text} {f : Fragment}

theorem append_empty (hf : f.content = []) : append acc f = acc := if_pos hf

theorem append_joined (hf : f.content ≠ []) (h : acc.2 = ("<" : Text) ∨ f.content = (">" : Text)) :
    append acc f = (acc.1 ++ f.content, f.content) := by
  simp only [append, if_neg hf, if_pos h]

theorem append_apart (hf : f.content ≠ []) (h : acc.2 ≠ ("<" : Text))
    (h' : f.content ≠ (">" : Text)) : append acc f = (acc.1 ++ " " ++ f.content, f.content) := by
  simp only [append, if_neg hf, if_neg (not_or.2 ⟨h, h'⟩)]

end append

end Tag

namespace Block

def summaryLines (b : Block) : List Text := b.summary.lines

/-- The summary, an empty line where both parts are there, and the tags. -/
def contentLines (b : Block) : List Text :=
  b.summaryLines ++ (if b.tags ≠ [] ∧ b.summaryLines ≠ [] then [[]] else []) ++
    b.tags.map Tag.render

def render (b : Block) : Text := framed b.contentLines

end Block

namespace Declaration

/-- The tag lines of a new comment: all elements, and the unresolved exceptions with them. -/
def stubTags (d : Declaration) (p : Policy) : List Text :=
  let generic := fun n : Text => ("@param " : Text) ++ n.angled
  match d.kind with
  | .field => []
  | .enumConstant => []
  | .type => d.typeParameters.map generic
  | _ =>
    (if p.methodTypeParameters then d.typeParameters.map generic else []) ++
      d.parameterNames.map (("@param " : Text) ++ ·) ++
      (if d.documentsReturn then [("@return" : Text)] else []) ++
      d.thrown.map fun x => ("@throws " : Text) ++ x.spelling p.qualifiedExceptionNames

def stub? (d : Declaration) (p : Policy) : Option Text :=
  if d.doc.isSome ∨ d.name = [] then none
  else
    let tags := d.stubTags p
    let gap := if tags ≠ [] ∧ p.stubPlaceholder ≠ [] then [[]] else []
    some (framed (p.stubPlaceholder :: (gap ++ tags)))

end Declaration

/-- The lines after the first indented and joined by `delimiter`, with the indentation of what
follows at the end. The first line stands where the declaration stood. -/
def indentComment (comment indent delimiter : Text) : Text :=
  match comment.lines with
  | [] => []
  | first :: rest =>
    let indented := fun l : Text => if l = [] then l else indent ++ l
    first ++ rest.flatMap (fun l => delimiter ++ indented l) ++ delimiter ++ indent

end DocComment

import DocComment.Comment
import DocComment.Text.Digit

/-! What the tool proposes for a declaration: tags to insert, a new comment, a removal, or the
reason for doing nothing. A plan comes with the declaration it leaves behind. -/

namespace DocComment

/-- `subject` tells what is documented where the name alone does not. -/
inductive Label
  | addAll
  | add (role : Role)
  | comment (subject : String) (name : Text)
  | remove
  deriving DecidableEq, Inhabited

def Label.text : Label → Text
  | .addAll => "Add all missing tags"
  | .add .valueParameter => "Add '@param' tag"
  | .add .typeParameter => "Add '@param' tag"
  | .add .returned => "Add '@return' tag"
  | .add .thrownException => "Add '@throws' tag"
  | .comment subject name => "Add Javadoc for " ++ subject ++ "'" ++ name ++ "'"
  | .remove => "Remove tag"

def Label.comment? (k : DeclarationKind) (name : Text) : Option Label :=
  match k with
  | .method => some (.comment "" name)
  | .type => some (.comment "" name)
  | .field => some (.comment "field " name)
  | .enumConstant => some (.comment "enum constant " name)
  | .unknown _ => none

inductive Refusal
  | methodsOnly (role : Role) (kind : DeclarationKind)
  | noElement (role : Role) (position : Int) (declaration : Text)
  | noDoc (declaration : Text)
  | noTag (index : Int) (size : Nat)
  deriving DecidableEq, Inhabited

/-- The integer of a request may be too long to be told; the length of a list never is. -/
def Refusal.message? : Refusal → Option Text
  | .methodsOnly r k => some (r.word ++ " tags apply to methods only, not " ++ k.word ++ ".")
  | .noElement r i d =>
    (Text.showInt? i).map fun n => "No " ++ r.word ++ " at position " ++ n ++ " of '" ++ d ++ "'."
  | .noDoc d => some ("'" ++ d ++ "' has no doc comment.")
  | .noTag i n =>
    (Text.showInt? i).map fun index =>
      "Tag index " ++ index ++ " out of range (0.." ++ toString ((n : Int) - 1) ++ ")."

/-- Why a request that is in order changes nothing. Its place is one that the declaration has. -/
inductive Notice
  | nothingMissing (declaration : Text)
  | notMissing (role : Role) (place : Nat) (declaration : Text)
  | noComment (declaration : Text)
  deriving DecidableEq, Inhabited

def Notice.message : Notice → Text
  | .nothingMissing d => "No missing tags for '" ++ d ++ "'."
  | .notMissing r i d =>
    "No missing " ++ r.word ++ " tag at position " ++ toString i ++ " of '" ++ d ++ "'."
  | .noComment d => "No comment generated for '" ++ d ++ "'."

/-- `tags` are those of the doc comment behind the insertions, `stub` is a comment that is new. -/
structure Plan where
  label : Text := []
  insertions : List Insertion := []
  tags : List Tag := []
  stub : Option Text := none
  warnings : List Text := []
  errors : List Text := []
  deriving DecidableEq, Inhabited

namespace Plan

def refused (message : Text) : Plan := { errors := [message] }

def noted (label : Option Label) (notice : Notice) (tags : List Tag) : Plan :=
  { label := (label.map Label.text).getD [], tags, warnings := [notice.message] }

def commented (label : Label) (stub : Text) : Plan := { label := label.text, stub := some stub }

def inserted (label : Label) (insertions : List Insertion) (tags : List Tag) : Plan :=
  { label := label.text, insertions, tags }

def removed (tags : List Tag) : Plan := { label := Label.remove.text, tags }

def actionable (p : Plan) : Bool := p.errors.isEmpty && (!p.insertions.isEmpty || p.stub.isSome)

end Plan

/-- What stops a plan: a broken contract, a kind of declaration that labels and refusals have no
word for, or a refusal that cannot be told. -/
inductive PlanFault
  | defect (d : Defect)
  | unlabelled (kind : Text)
  | unspeakable (kind : Text)
  | unwritable
  deriving DecidableEq, Inhabited

namespace Declaration

def planStub (d : Declaration) (p : Policy) (indent : Text) : Except PlanFault Plan :=
  match d.stub? p with
  | none => .ok (.noted none (.noComment d.name) [])
  | some s =>
    let s := if indent = [] then s else indentComment s indent "\n"
    match Label.comment? d.kind d.name with
    | some l => .ok (.commented l s)
    | none => .error (.unlabelled d.kind.word)

/-- Tags for all that lacks one; for a declaration without a comment, a comment. -/
def planAll (d : Declaration) (p : Policy) (indent : Text) :
    Except PlanFault (Plan × Declaration) :=
  match d.doc with
  | none => (d.planStub p indent).map (·, d)
  | some _ =>
    match d.missingElements p with
    | .error e => .error (.defect e)
    | .ok [] => .ok (.noted (some .addAll) (.nothingMissing d.name) d.tags, d)
    | .ok _ =>
      match d.insertAll p with
      | .error e => .error (.defect e)
      | .ok (is, d') => .ok (.inserted .addAll is d'.tags, d')

/-- A type parameter that the policy leaves out is still offered by itself. -/
def isMissing (d : Declaration) (e : Element) (p : Policy) : Except Defect Bool :=
  let p := if e.role = .typeParameter then { p with methodTypeParameters := true } else p
  (d.missingElements p).map (·.any fun c => c.role = e.role && c.position = e.position)

def refuse (d : Declaration) (r : Refusal) : Except PlanFault (Plan × Declaration) :=
  match r.message? with
  | some m => .ok (.refused m, d)
  | none => .error .unwritable

def planOne (d : Declaration) (p : Policy) (r : Role) (position : Int) :
    Except PlanFault (Plan × Declaration) :=
  if d.kind ≠ .method ∧ r ≠ .typeParameter then
    match d.kind with
    | .unknown w => .error (.unspeakable w)
    | k => d.refuse (.methodsOnly r k)
  else if position < 0 ∨ (d.count r : Int) ≤ position then
    d.refuse (.noElement r position d.name)
  else
    match d.elementAt r position p with
    | .error e => .error (.defect e)
    | .ok e =>
      match d.isMissing e p with
      | .error e => .error (.defect e)
      | .ok false => .ok (.noted (some (.add r)) (.notMissing r position.toNat d.name) d.tags, d)
      | .ok true =>
        let (i, d') := d.insertElement e
        .ok (.inserted (.add r) [i] d'.tags, d')

def planRemove (d : Declaration) (index : Int) : Except PlanFault (Plan × Declaration) :=
  match d.doc with
  | none => d.refuse (.noDoc d.name)
  | some b =>
    if index < 0 ∨ (b.tags.length : Int) ≤ index then d.refuse (.noTag index b.tags.length)
    else
      let tags := b.tags.eraseIdx index.toNat
      .ok (.removed tags, { d with doc := some { b with tags } })

end Declaration

end DocComment

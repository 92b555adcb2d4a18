import DocComment.Declaration
import DocComment.Policy

/-! The elements of a declaration that take a tag, and those that lack one.

`Declaration.taggable` lists the elements in declaration order; `Declaration.missing` keeps the
ones that no tag of the doc comment documents. An element carries the names whose tags have to
stand before its own. -/

namespace DocComment

inductive Role
  | valueParameter | typeParameter | returned | thrownException
  deriving DecidableEq, Inhabited

namespace Role

def word : Role → Text
  | .valueParameter => "value_parameter"
  | .typeParameter => "type_parameter"
  | .returned => "return"
  | .thrownException => "thrown_exception"

def all : List Role := [.valueParameter, .typeParameter, .returned, .thrownException]

def ofWord? (w : Text) : Option Role := all.find? (·.word == w)

def tagKind : Role → TagKind
  | .valueParameter => .param
  | .typeParameter => .param
  | .returned => .returns
  | .thrownException => .throws

end Role

/-- A contract that only a broken caller violates. -/
inductive Defect
  | declared (reason : Text) (circumstances : List (Text × Text))
  | unknownRole (role : Text)
  | positionOutOfRange (role : Role) (position : Int) (size : Nat)
  | noBlock (declaration : Text)
  | unknownKind (kind : Text)
  | missingPayload (command : String)
  | payloadType (command type : String)
  deriving DecidableEq, Inhabited

namespace Defect

def reason : Defect → Text
  | .declared r _ => if r = [] then "never() marker reached" else r
  | .unknownRole _ => "unexpected missing element role"
  | .positionOutOfRange .. => "missing element position out of range"
  | .noBlock _ => "batch tag insertion requires a doc block"
  | .unknownKind _ => "unexpected declaration kind"
  | .missingPayload _ => "missing command payload"
  | .payloadType .. => "invalid command payload type"

/-- What the reason leaves open, by name, unless a position has too many digits to be told. -/
def circumstances? : Defect → Option (List (Text × Text))
  | .declared _ e => some e
  | .unknownRole r => some [("role", r)]
  | .positionOutOfRange r p n =>
    (Text.showInt? p).map fun p => [("role", r.word), ("position", p), ("size", toString n)]
  | .noBlock d => some [("declaration", d)]
  | .unknownKind k => some [("kind", k)]
  | .missingPayload c => some [("command", c)]
  | .payloadType c t => some [("command", c), ("payload_type", t)]

end Defect

def Role.read (w : Text) : Except Defect Role :=
  match Role.ofWord? w with
  | some r => .ok r
  | none => .error (.unknownRole w)

/-- `leading` holds the arguments of the tags that come before the element's own among the tags of
its kind; `none` where there is at most one such tag. `typeText` is the spelling of an exception. -/
structure Element where
  role : Role
  name : Text := []
  position : Nat := 0
  leading : Option (List Text) := none
  typeText : Text := []
  deriving DecidableEq, Inhabited

namespace Element

def argument (e : Element) : Option Text :=
  match e.role with
  | .typeParameter => some e.name.angled
  | .returned => none
  | .valueParameter => some e.name
  | .thrownException => some e.name

/-- Any return tag documents what is returned; the other roles go by the argument. -/
def isDocumentedBy (e : Element) (t : Tag) : Bool :=
  t.kind.canonical = e.role.tagKind && (e.role = .returned || t.argument = e.argument)

def typeParameter (names : List Text) (i : Nat) (name : Text) : Element :=
  { role := .typeParameter, name, position := i
    leading := some ((names.take i).map Text.angled) }

/-- All type parameters come before the first value parameter. -/
def valueParameter (names generics : List Text) (i : Nat) (name : Text) : Element :=
  { role := .valueParameter, name, position := i
    leading := some (names.take i ++ generics.map Text.angled) }

def returned : Element := { role := .returned }

def thrownException (xs : List ThrownException) (qualified : Bool) (i : Nat)
    (x : ThrownException) : Element :=
  { role := .thrownException, name := x.simpleName, position := i
    leading := some ((xs.take i).map ThrownException.simpleName)
    typeText := x.spelling qualified }

/-- The leading names as a set: each once, in the order of their code points. -/
def leadingSet (e : Element) : Option (List Text) :=
  e.leading.map fun names => (names.mergeSort Text.precedes).eraseDups

end Element

namespace Declaration

def generics (d : Declaration) (p : Policy) : List Text :=
  if d.kind = .method ∧ p.methodTypeParameters = false then [] else d.typeParameters

def typeParameterElements (d : Declaration) (p : Policy) : List Element :=
  (d.generics p).mapIdx (Element.typeParameter (d.generics p))

def valueParameterElements (d : Declaration) (p : Policy) : List Element :=
  d.parameterNames.mapIdx (Element.valueParameter d.parameterNames (d.generics p))

def returnElements (d : Declaration) : List Element :=
  if d.documentsReturn then [Element.returned] else []

/-- Exceptions that no compiler resolved take no tag. -/
def exceptionElements (d : Declaration) (p : Policy) : List Element :=
  d.thrown.zipIdx.filterMap fun (x, i) =>
    if x.isResolved then some (Element.thrownException d.thrown p.qualifiedExceptionNames i x)
    else none

def taggable (d : Declaration) (p : Policy) : List Element :=
  match d.kind with
  | .method =>
    d.typeParameterElements p ++ d.valueParameterElements p ++ d.returnElements ++
      d.exceptionElements p
  | .type => d.typeParameterElements p
  | _ => []

def documents (d : Declaration) (e : Element) : Bool := d.tags.any e.isDocumentedBy

def missing (d : Declaration) (p : Policy) : List Element :=
  (d.taggable p).filter fun e => !d.documents e

def checkKind (d : Declaration) : Except Defect Unit :=
  match d.kind with
  | .unknown w => .error (.unknownKind w)
  | _ => .ok ()

def missingElements (d : Declaration) (p : Policy) : Except Defect (List Element) :=
  match d.checkKind with
  | .ok () => .ok (d.missing p)
  | .error e => .error e

/-- How many elements of a role the declaration counts; every declaration has one return slot. -/
def count (d : Declaration) : Role → Nat
  | .typeParameter => d.typeParameters.length
  | .valueParameter => d.parameters.length
  | .thrownException => d.thrown.length
  | .returned => 1

/-- The element at a position, whether or not it is documented and whatever a policy leaves out. -/
def elementAt (d : Declaration) (r : Role) (position : Int) (p : Policy) :
    Except Defect Element :=
  let i := position.toNat
  let found : Option Element :=
    match r with
    | .typeParameter => d.typeParameters[i]?.map (Element.typeParameter d.typeParameters i)
    | .valueParameter =>
      d.parameterNames[i]?.map (Element.valueParameter d.parameterNames d.typeParameters i)
    | .thrownException =>
      d.thrown[i]?.map (Element.thrownException d.thrown p.qualifiedExceptionNames i)
    | .returned => some Element.returned
  match r, found with
  | .returned, _ => .ok Element.returned
  | _, some e =>
    if position < 0 then .error (.positionOutOfRange r position (d.count r)) else .ok e
  | _, none => .error (.positionOutOfRange r position (d.count r))

end Declaration

end DocComment

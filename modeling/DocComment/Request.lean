import DocComment.Element
import DocComment.Request.Check

/-! The requests of a client and how they are read from a payload. -/

namespace DocComment

open Data

namespace Check

def fragment : Check Fragment :=
  model "FragmentDTO" fun place t =>
    (fun kind value => kind value) <$>
      required "kind" (oneOf .literal [("identifier", Fragment.identifier), ("text", .text)])
        place t <*>
      required "value" text place t

def writtenTag : Check WrittenTag :=
  model "TagDTO" fun place t =>
    WrittenTag.mk <$> required "name" text place t <*>
      optional "fragments" (listOf fragment) [] place t

def block : Check Block :=
  model "DocBlockDTO" fun place t =>
    (fun summary tags => { summary, tags := tags.map WrittenTag.read }) <$>
      optional "summary" text [] place t <*> optional "tags" (listOf writtenTag) [] place t

def parameter : Check Parameter :=
  model "ParameterDTO" fun place t =>
    Parameter.mk <$> required "name" text place t <*> optional "type_name" text [] place t

def thrownException : Check ThrownException :=
  model "ThrownExceptionDTO" fun place t =>
    ThrownException.mk <$> required "type_name" text place t <*>
      optional "resolved_name" (nullable text) none place t

def declarationKind : Check DeclarationKind :=
  oneOf .member (DeclarationKind.known.map fun k => (k.word, k))

def role : Check Role := oneOf .member (Role.all.map fun r => (r.word, r))

/-- An empty return type is none. -/
def declaration : Check Declaration :=
  model "DeclarationDTO" fun place t =>
    (fun kind name parameters typeParameters returnType isConstructor thrown doc =>
      { kind, name, parameters, typeParameters, returnType := returnType.filter (· ≠ [])
        isConstructor, thrown, doc }) <$>
      required "kind" declarationKind place t <*>
      optional "name" text [] place t <*>
      optional "parameters" (listOf parameter) [] place t <*>
      optional "type_parameters" (listOf text) [] place t <*>
      optional "return_type" (nullable text) none place t <*>
      optional "is_constructor" bool false place t <*>
      optional "thrown_exceptions" (listOf thrownException) [] place t <*>
      optional "doc" (nullable block) none place t

def element : Check (Role × Int) :=
  model "ElementDTO" fun place t =>
    Prod.mk <$> required "role" role place t <*> optional "position" int 0 place t

end Check

structure TagsRequest where
  declaration : Declaration
  element : Option (Role × Int) := none
  indent : Text := []
  methodTypeParameters : Option Bool := none
  qualifiedExceptionNames : Option Bool := none
  deriving DecidableEq, Inhabited

structure RemovalRequest where
  declaration : Declaration
  index : Int
  deriving DecidableEq, Inhabited

namespace Check

def tagsRequest : Check TagsRequest :=
  model "MissingTagsRequest" fun place t =>
    TagsRequest.mk <$> required "declaration" declaration place t <*>
      optional "element" (nullable element) none place t <*>
      optional "indent" text [] place t <*>
      optional "method_type_parameters" (nullable bool) none place t <*>
      optional "qualified_exception_names" (nullable bool) none place t

def removalRequest : Check RemovalRequest :=
  model "RemoveTagRequest" fun place t =>
    RemovalRequest.mk <$> required "declaration" declaration place t <*>
      required "index" int place t

/-- A value of a model, or the text that names all its faults. -/
def run {α : Type} (c : Check α) (model : String) (v : Value) : Except Text α :=
  match c [] v with
  | .valid a => .ok a
  | .faulty fs => .error (faultsText model fs)

end Check

def TagsRequest.read (v : Value) : Except Text TagsRequest :=
  Check.tagsRequest.run "MissingTagsRequest" v

def RemovalRequest.read (v : Value) : Except Text RemovalRequest :=
  Check.removalRequest.run "RemoveTagRequest" v

/-- How the payloads of requests are checked: each gives its request or the text that names its
faults. -/
structure Validation where
  tags : Value → Except Text TagsRequest
  removal : Value → Except Text RemovalRequest

def Validation.checked : Validation := { tags := TagsRequest.read, removal := RemovalRequest.read }

/-- The choices that a request makes for itself. -/
def TagsRequest.overrides (r : TagsRequest) : Table :=
  let value := fun b : Option Bool => (b.map Value.bool).getD .null
  [("method_type_parameters", value r.methodTypeParameters),
    ("qualified_exception_names", value r.qualifiedExceptionNames)]

end DocComment

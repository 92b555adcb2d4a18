import DocComment.Block

/-! What a doc comment stands in front of: a method, a type, a field or an enum constant, with the
parts of its signature that take tags. -/

namespace DocComment

/-- `unknown` keeps a kind that a client made up. -/
inductive DeclarationKind
  | method | type | field | enumConstant
  | unknown (word : Text)
  deriving DecidableEq, Inhabited

def DeclarationKind.word : DeclarationKind → Text
  | .method => "method"
  | .type => "type"
  | .field => "field"
  | .enumConstant => "enum_constant"
  | .unknown w => w

def DeclarationKind.known : List DeclarationKind := [.method, .type, .field, .enumConstant]

def DeclarationKind.ofWord? (w : Text) : Option DeclarationKind := known.find? (·.word == w)

structure Parameter where
  name : Text
  typeName : Text := []
  deriving DecidableEq, Inhabited

/-- An exception of a `throws` clause; `resolvedName` is what a compiler found under its name. -/
structure ThrownException where
  typeName : Text
  resolvedName : Option Text := none
  deriving DecidableEq, Inhabited

namespace ThrownException

def isResolved (x : ThrownException) : Bool := x.resolvedName.isSome

/-- The last segment of the resolved name, or of the written one where that says nothing. -/
def simpleName (x : ThrownException) : Text :=
  match x.resolvedName with
  | none => x.typeName.simpleName
  | some r => if r = [] then x.typeName.simpleName else r.simpleName

def spelling (x : ThrownException) (qualified : Bool) : Text :=
  if qualified then x.typeName else x.simpleName

end ThrownException

structure Declaration where
  kind : DeclarationKind
  name : Text := []
  parameters : List Parameter := []
  typeParameters : List Text := []
  returnType : Option Text := none
  isConstructor : Bool := false
  thrown : List ThrownException := []
  doc : Option Block := none
  deriving DecidableEq, Inhabited

namespace Declaration

def isVoid (type : Text) : Bool := type = "void"

/-- Only a method that is no constructor and returns something takes a return tag. -/
def documentsReturn (d : Declaration) : Bool :=
  d.kind = .method && !d.isConstructor &&
    match d.returnType with
    | none => false
    | some t => !isVoid t

def tags (d : Declaration) : List Tag := (d.doc.map Block.tags).getD []

def parameterNames (d : Declaration) : List Text := d.parameters.map Parameter.name

def exceptionNames (d : Declaration) : List Text := d.thrown.map ThrownException.simpleName

end Declaration

end DocComment

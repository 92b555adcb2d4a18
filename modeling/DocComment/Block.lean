import DocComment.Tag
import DocComment.Text.Digit

/-! The block of a doc comment: a summary and a list of tags, with look-up, insertion and removal
of tags by position. -/

namespace DocComment

structure Block where
  summary : Text := []
  tags : List Tag := []
  deriving DecidableEq, Inhabited

inductive PositionFault
  | outside (index : Int) (size : Nat)
  | emptyList
  | pastEnds
  | immense
  deriving DecidableEq, Inhabited

/-- There is no message for a position of too many digits. -/
def PositionFault.message? : PositionFault → Option Text
  | .outside i n =>
    (Text.showInt? i).map fun index => "tag index " ++ index ++ " outside 0.." ++ toString n
  | .emptyList => some "pop from empty list"
  | .pastEnds => some "pop index out of range"
  | .immense => some "Python int too large to convert to C ssize_t"

namespace Block

/-- Tags of one kind that document `argument`, or that document anything. -/
def isTagOf (kind : TagKind) (argument : Option Text) (t : Tag) : Bool :=
  t.kind = kind && (argument.isNone || t.argument = argument)

def isThrowsOf (argument : Text) (t : Tag) : Bool :=
  t.kind.canonical = .throws && t.argument = some argument

def find? (b : Block) (kind : TagKind) (argument : Option Text) : Option Nat :=
  b.tags.findIdx? (isTagOf kind argument)

def findParam? (b : Block) (argument : Text) : Option Nat := b.find? .param (some argument)

def findThrows? (b : Block) (argument : Text) : Option Nat :=
  b.tags.findIdx? (isThrowsOf argument)

def insert (b : Block) (index : Int) (t : Tag) : Except PositionFault Block :=
  if index < 0 ∨ (b.tags.length : Int) < index then .error (.outside index b.tags.length)
  else .ok { b with tags := b.tags.insertIdx index.toNat t }

def greatestIndex : Int := 0x7FFFFFFFFFFFFFFF

/-- Takes a tag out; a negative index counts from the end. -/
def remove (b : Block) (index : Int) : Except PositionFault (Tag × Block) :=
  if index < -greatestIndex - 1 ∨ greatestIndex < index then .error .immense
  else
    let i := if index < 0 then index + b.tags.length else index
    match b.tags[i.toNat]? with
    | some t =>
      if i < 0 then .error .pastEnds else .ok (t, { b with tags := b.tags.eraseIdx i.toNat })
    | none => if b.tags = [] then .error .emptyList else .error .pastEnds

end Block

end DocComment

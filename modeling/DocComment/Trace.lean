import DocComment.Plan

/-! What a run reports on its way, with the level and the source that each line names. -/

namespace DocComment

inductive Level
  | debug | info | warning
  deriving DecidableEq, Inhabited

def Level.word : Level → String
  | .debug => "DEBUG"
  | .info => "INFO"
  | .warning => "WARNING"

inductive Event
  | skipped (exception declaration : Text)
  | placed (tag : Text) (argument : Option Text) (index size : Nat)
  | added (count : Nat) (declaration : Text)
  | removed (tag declaration : Text)
  | malformed (path : Text)
  | unreadable (path reason : Text)
  deriving DecidableEq, Inhabited

namespace Event

def level : Event → Level
  | .skipped .. => .debug
  | .placed .. => .debug
  | .added .. => .info
  | .removed .. => .info
  | .malformed _ => .warning
  | .unreadable .. => .warning

def source : Event → String
  | .skipped .. => "doctags.javadoc.inspection:missing_elements"
  | .placed .. => "doctags.javadoc.insertion:insert_tag"
  | .added .. => "doctags.proposals.engine:plan_missing_tags"
  | .removed .. => "doctags.proposals.engine:plan_remove_tag"
  | .malformed _ => "doctags.config:_load_toml"
  | .unreadable .. => "doctags.config:_load_toml"

def message : Event → Text
  | .skipped x d => "skipping unresolved exception " ++ x ++ " on " ++ d
  | .placed t a i n =>
    "placing @" ++ t ++ " " ++ a.getD ("None" : String) ++ " at " ++ toString i ++ " of " ++
      toString n
  | .added n d => "added " ++ toString n ++ " tag(s) to '" ++ d ++ "'"
  | .removed t d => "removed @" ++ t ++ " from '" ++ d ++ "'"
  | .malformed p => "ignoring malformed config " ++ p
  | .unreadable p r => "could not read " ++ p ++ ": " ++ r

def line (e : Event) : Text :=
  let w := e.level.word
  w ++ Text.ofChars (List.replicate (8 - w.length) ' ') ++ " " ++ e.source ++ " - " ++
    e.message ++ "\n"

end Event

/-- The lines of a run; debug lines only where they are asked for. -/
def logText (verbose : Bool) (es : List Event) : Text :=
  (es.filter fun e => verbose || e.level ≠ .debug).flatMap Event.line

namespace Declaration

def inspectionTrace (d : Declaration) : List Event :=
  if d.kind = .method then
    (d.thrown.filter (!·.isResolved)).map fun x => .skipped x.typeName d.name
  else []

/-- Insertions into a list of `size` tags, which grows by one with each. -/
def placementTrace (size : Nat) (is : List Insertion) : List Event :=
  is.mapIdx fun k i => .placed i.tag.name i.tag.argument i.index (size + k)

/-- What `planAll` reports. The elements are looked at to see whether there is anything to do, and
once more to do it. -/
def traceAll (d : Declaration) (plan : Plan) : List Event :=
  if d.doc.isNone then []
  else if plan.insertions = [] then d.inspectionTrace
  else
    d.inspectionTrace ++ d.inspectionTrace ++ placementTrace d.tags.length plan.insertions ++
      [.added plan.insertions.length d.name]

def traceOne (d : Declaration) (plan : Plan) : List Event :=
  if plan.errors = [] then d.inspectionTrace ++ placementTrace d.tags.length plan.insertions
  else []

def traceRemoval (d : Declaration) (index : Int) (plan : Plan) : List Event :=
  if plan.errors = [] then
    (d.tags[index.toNat]?).toList.map fun t => .removed t.name d.name
  else []

end Declaration

end DocComment

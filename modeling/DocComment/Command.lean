import DocComment.Config
import DocComment.Request
import DocComment.Response

/-! The commands that a client runs with a payload, and what each answers. -/

namespace DocComment

open Data

inductive Command
  | missingTags | removeTag | addMissingTags | addMissingTag | dropTag
  deriving DecidableEq, Inhabited

namespace Command

def word : Command → String
  | .missingTags => "missing_tags"
  | .removeTag => "remove_tag"
  | .addMissingTags => "doctags.addMissingTags"
  | .addMissingTag => "doctags.addMissingTag"
  | .dropTag => "doctags.removeTag"

def all : List Command := [.missingTags, .removeTag, .addMissingTags, .addMissingTag, .dropTag]

def ofWord? (w : Text) : Option Command := all.find? fun c => c.word = w

end Command

inductive CommandFault
  | plan (f : PlanFault)
  | reading (f : ReadFault)
  deriving DecidableEq, Inhabited

def CommandFault.ofDefect (d : Defect) : CommandFault := .plan (.defect d)

abbrev Answer := Except CommandFault (Response × List Event)

namespace Answer

def quiet (r : Response) : Answer := .ok (r, [])

def refuse (error : Text) : Answer := quiet { errors := [error] }

end Answer

namespace Command

def requireTable (command : String) (payload : Value) : Except Defect Table :=
  match payload with
  | .table t => .ok t
  | .null => .error (.missingPayload command)
  | v => .error (.payloadType command v.typeWord)

/-- The plan of a request, with the declaration it leaves and what the run reports. -/
def planFor (r : TagsRequest) (p : Policy) :
    Except PlanFault (Plan × Declaration × List Event) :=
  match r.element with
  | none => (r.declaration.planAll p r.indent).map fun (plan, d) =>
      (plan, d, r.declaration.traceAll plan)
  | some (role, position) => (r.declaration.planOne p role position).map fun (plan, d) =>
      (plan, d, r.declaration.traceOne plan)

def answerTags (v : Validation) (payload : Value) (config : ConfigFile) : Answer :=
  match v.tags payload with
  | .error e => .refuse e
  | .ok r =>
    match config.policy r.overrides with
    | .error e => .error (.reading e)
    | .ok (p, log) =>
      match planFor r p with
      | .error e => .error (.plan e)
      | .ok (plan, _, trace) => .ok (plan.response, log ++ trace)

def answerRemoval (v : Validation) (payload : Value) : Answer :=
  match v.removal payload with
  | .error e => .refuse e
  | .ok r =>
    match r.declaration.planRemove r.index with
    | .error e => .error (.plan e)
    | .ok (plan, _) => .ok (plan.response, r.declaration.traceRemoval r.index plan)

/-- The answer of a command. The batch of an editor takes no element, its command for a single tag
needs one. -/
def run (c : Command) (v : Validation) (payload : Value) (config : ConfigFile) : Answer :=
  match requireTable c.word payload with
  | .error d => .error (.ofDefect d)
  | .ok t =>
    match c with
    | .missingTags => answerTags v (.table t) config
    | .removeTag => answerRemoval v (.table t)
    | .addMissingTags => answerTags v (.table (t.erase "element")) config
    | .addMissingTag =>
      match t.given? "element" with
      | none => .refuse "element is required for a single tag insertion"
      | some _ => answerTags v (.table t) config
    | .dropTag => answerRemoval v (.table t)

/-- Where a command looks for its configuration. An editor knows of a workspace only, which may have
no name; without one it is the current directory, as long as there is one. -/
def configPath? (c : Command) (current root config : Option Text) : Option Text :=
  let within := fun root : Option Text => (root.or current).map fun d => ConfigFile.locate d none
  match c, config with
  | .missingTags, some f => some (FilePath.normal f)
  | .missingTags, none => within root
  | _, _ => within (root.filter (· ≠ []))

def configFile (c : Command) (openFile : Text → Reading) (room : Nat)
    (current root config : Option Text) : ConfigFile :=
  match c.configPath? current root config with
  | some path => { path, reading := openFile path, room }
  | none => { path := [], reading := .unusable .noDirectory, room }

end Command

end DocComment

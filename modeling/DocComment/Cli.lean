import DocComment.Cli.Arguments
import DocComment.Command
import DocComment.Data.Json

/-! The command line: `plan` prints the response to a payload and `render` prints the doc comment
that comes of it. What is read comes through `openFile`, so that a run is a function of what it
finds. -/

namespace DocComment.Cli

open Data

/-- What stops a run; `output` is a comment that no stream of bytes can hold. -/
inductive Fault
  | usage (f : UsageFault)
  | command (f : CommandFault)
  | output (f : Text.EncodeFault)
  deriving DecidableEq, Inhabited

structure Outcome where
  exitCode : Nat := 0
  stdout : String := ""
  stderr : String := ""
  deriving DecidableEq, Inhabited

def mainOptions : Options :=
  { flags := ["--verbose"], letters := [('v', "--verbose")], mixed := false }

inductive Task
  | plan | render
  deriving DecidableEq, Inhabited

namespace Task

def ofWord? (w : Text) : Option Task :=
  if w = "plan" then some .plan else if w = "render" then some .render else none

def options : Task → Options
  | .plan => { texts := ["--single"], paths := ["--root", "--config"] }
  | .render => { paths := ["--root", "--config"] }

end Task

def commandWords : List Text := ["plan", "render", "lsp"]

structure Invocation where
  task : Task
  verbose : Bool
  payload : Text
  single : Option Text := none
  root : Text := "."
  config : Option Text := none
  deriving DecidableEq, Inhabited

def suggesting (f : UsageFault) : List Text → UsageFault
  | [] => f
  | w :: _ =>
    match w.mostLike commandWords with
    | [] => f
    | cs => .mistyped f cs

def unlessHelp {α : Type} (p : Parsed) (r : Except UsageFault α) : Except UsageFault (Option α) :=
  if p.asksHelp then .ok none else r.map some

/-- A word that is no command but looks like an option is looked up as one first. -/
def unknownCommand {α : Type} (word : Text) (rest : List Text) : Except UsageFault (Option α) :=
  if isOption word then
    match scan mainOptions {} (word :: rest) with
    | .error (e, behind) => .error (suggesting e behind)
    | .ok p => unlessHelp p (.error (suggesting (.noSuchCommand word) p.arguments))
  else .error (suggesting (.noSuchCommand word) [word])

/-- The editor's server is another program. What is wrong with the words for it is told here. -/
def serverCommand {α : Type} (words : List Text) : Except UsageFault (Option α) :=
  match scan {} {} words with
  | .error (e, _) => .error e
  | .ok p => unlessHelp p
      (.error (if p.arguments = [] then .noSuchCommand "lsp" else .extraArguments p.arguments))

/-- The payload of a command; values that have to be paths are looked at before it. -/
def Task.payload (task : Task) (p : Parsed) : Except UsageFault Text :=
  match p.refusedPath? task.options with
  | some e => .error e
  | none => p.only "payload_path"

def Task.invocation (task : Task) (verbose : Bool) (words : List Text) :
    Except UsageFault (Option Invocation) :=
  match scan task.options {} words with
  | .error (e, _) => .error e
  | .ok p => unlessHelp p <| (task.payload p).map fun payload =>
      { task, verbose, payload, single := p.value? "--single"
        root := (p.value? "--root").getD ("." : Text), config := p.value? "--config" }

def Invocation.ofWords (verbose : Bool) : List Text → Except UsageFault (Option Invocation)
  | [] => .error .commandMissing
  | word :: rest =>
    match Task.ofWord? word with
    | some task => task.invocation verbose rest
    | none => if word = "lsp" then serverCommand rest else unknownCommand word rest

/-- The invocation that a command line spells, or none where it asks for help. -/
def Invocation.read (args : List Text) : Except UsageFault (Option Invocation) :=
  match scan mainOptions {} args with
  | .error (e, _) => .error e
  | .ok p =>
    if p.asksHelp then .ok none
    else Invocation.ofWords (p.flags.contains "--verbose") p.arguments

def Invocation.configPath (i : Invocation) : Text := ConfigFile.locate i.root i.config

def ofReadFault (f : ReadFault) : Fault := .command (.reading f)

/-- A payload is an object; a declaration by itself is put into one. -/
def payloadOf (room : Nat) (path : Text) (text : List Char) : Except Fault Table :=
  match Json.read room text with
  | .error .malformed => .error (.usage (.payloadNotJson path))
  | .error (.excess e) => .error (ofReadFault (.excess e))
  | .ok (.table t) =>
    .ok (if (Table.get? t "declaration").isSome then t else [("declaration", .table t)])
  | .ok _ => .error (.usage (.payloadNotObject path))

def textOf (path : Text) (r : Reading) : Except Fault (List Char) :=
  match r with
  | .content bytes => (readText bytes).mapError ofReadFault
  | .unusable f => .error (ofReadFault (.path f))
  | r =>
    .error (.usage (.payloadUnreadable path ((r.reason? (FilePath.normal path)).getD [])))

/-- A role and, after a colon, a position; the first element where none is given. -/
def readElement (s : Text) : Except UsageFault (Role × Int) :=
  let (word, rest) := s.span (· != .char ':')
  let position : Text := rest.drop 1
  match Role.ofWord? (Text.trim word) with
  | none => .error (.unknownRole word (Role.all.map Role.word))
  | some r =>
    if position.trim = [] then .ok (r, 0)
    else match position.chars?.bind (Text.readInt? Text.digit?) with
      | some i => .ok (r, i)
      | none => .error (.invalidPosition position)

def elementValue (e : Role × Int) : Value :=
  .table [("role", .text e.1.word), ("position", .int e.2)]

def errorText (t : Text) : String := String.ofList t.showHalves

/-- The response as text; a response with errors makes the run fail. -/
def planOutcome (verbose : Bool) (payload : Table) (config : ConfigFile) :
    Except Fault Outcome :=
  match Command.run .missingTags .checked (.table payload) config with
  | .error e => .error (.command e)
  | .ok (r, log) => .ok {
      exitCode := if r.errors = [] then 0 else 2
      stdout := Json.pretty (.table r.table) ++ "\n"
      stderr := errorText (logText verbose log) }

/-- The comment as text: a new one, or that of the declaration with its new tags. What is shown to
the user is shown without control sequences; the log is not. -/
def renderOutcome (verbose : Bool) (payload : Table) (config : ConfigFile) :
    Except Fault Outcome :=
  match TagsRequest.read (.table payload) with
  | .error e => .ok { exitCode := 2, stderr := errorText e.dropSequences }
  | .ok r =>
    match config.policy r.overrides with
    | .error e => .error (ofReadFault e)
    | .ok (p, log) =>
      match Command.planFor { r with element := none } p with
      | .error e => .error (.command (.plan e))
      | .ok (plan, d, trace) =>
        let warnings := plan.warnings.flatMap fun w => w.dropSequences ++ ("\n" : Text)
        let comment := (plan.stub.or (d.doc.map Block.render)).getD []
        match comment.dropSequences.encode with
        | .error f => .error (.output f)
        | .ok stdout =>
          .ok { stdout, stderr := errorText (logText verbose (log ++ trace) ++ warnings) }

def helpText : String :=
  "Usage: [--verbose] plan [--single ROLE[:POSITION]] [--root DIR] [--config FILE] PAYLOAD\n" ++
  "       [--verbose] render [--root DIR] [--config FILE] PAYLOAD\n"

/-- A whole run: the payload is read first, then the element of `--single`, then the
configuration. Both have the same `room` for values inside each other. -/
def run {m : Type → Type} [Monad m] (room : Nat) (openFile : Text → m Reading)
    (stdin : m (List Char)) (args : List Text) : m (Except Fault Outcome) :=
  match Invocation.read args with
  | .error e => pure (.error (.usage e))
  | .ok none => pure (.ok { stdout := helpText })
  | .ok (some i) => do
    let text ←
      if i.payload = "-" then Except.ok <$> stdin
      else textOf i.payload <$> openFile (FilePath.normal i.payload)
    let payload := text.bind (payloadOf room i.payload)
    let payload := match i.single with
      | none => payload
      | some s => payload.bind fun t =>
        match readElement s with
        | .ok e => .ok (t.set "element" (elementValue e))
        | .error e => .error (.usage e)
    match payload with
    | .error e => return .error e
    | .ok t =>
      let config : ConfigFile := { path := i.configPath, reading := ← openFile i.configPath, room }
      match i.task with
      | .plan => return planOutcome i.verbose t config
      | .render => return renderOutcome i.verbose t config

end DocComment.Cli

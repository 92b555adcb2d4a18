import DocComment.Files
import DocComment.Text.Likeness

/-! The words of a command line sorted into options and arguments. -/

namespace DocComment.Cli

/-- A command line that cannot be followed; `mistyped` adds commands that may have been meant. -/
inductive UsageFault
  | noSuchOption (option : Text) (known : List Text)
  | valueMissing (option : Text)
  | valueRefused (option : Text)
  | pathRefused (option : Text) (f : PathFault)
  | argumentMissing (name : String)
  | extraArguments (words : List Text)
  | commandMissing
  | noSuchCommand (word : Text)
  | mistyped (f : UsageFault) (commands : List Text)
  | payloadUnreadable (path reason : Text)
  | payloadNotJson (path : Text)
  | payloadNotObject (path : Text)
  | unknownRole (word : Text) (known : List Text)
  | invalidPosition (word : Text)
  deriving DecidableEq, Inhabited

namespace UsageFault

def commas (ts : List Text) : Text := List.intercalate ", " ts

def dropPeriods (t : Text) : Text := (t.reverse.dropWhile (· == .char '.')).reverse

def statement : UsageFault → Text
  | .noSuchOption o _ => "No such option: " ++ o.showControls
  | .valueMissing o => "Option " ++ o.quoted ++ " requires an argument."
  | .valueRefused o => "Option " ++ o.quoted ++ " does not take a value."
  | .pathRefused o f => "Invalid value for " ++ o.quoted ++ ": Value error, " ++ f.message
  | .argumentMissing n => "Missing argument " ++ Text.quoted n ++ "."
  | .extraArguments ws =>
    "Got unexpected extra argument(s) (" ++ Text.showControls (List.intercalate " " ws) ++ ")"
  | .commandMissing => "Missing command."
  | .noSuchCommand w => "No such command " ++ w.quoted ++ "."
  | .mistyped f cs =>
    dropPeriods f.statement ++ ". Did you mean " ++ commas (cs.map Text.quoted) ++ "?"
  | .payloadUnreadable p r => "Invalid value: cannot read payload " ++ p ++ ": " ++ r
  | .payloadNotJson p => "Invalid value: payload " ++ p ++ " is not valid JSON"
  | .payloadNotObject p => "Invalid value: payload " ++ p ++ " must be a JSON object"
  | .unknownRole w known =>
    "Invalid value: unknown role " ++ w.quoted ++ " (expected one of " ++ commas known ++ ")"
  | .invalidPosition w => "Invalid value: invalid position " ++ w.quoted

def hint : UsageFault → Text
  | .noSuchOption o known =>
    match o.mostLike known with
    | [] => []
    | os => " (Possible options: " ++ commas (os.mergeSort Text.precedes) ++ ")"
  | .mistyped f _ => f.hint
  | _ => []

def message (f : UsageFault) : Text := f.statement ++ f.hint

end UsageFault

/-- The options of a command: those with a value, which may have to be a path, those without, and
letters that stand for the latter. Where `mixed` holds, options may follow arguments. -/
structure Options where
  texts : List Text := []
  paths : List Text := []
  flags : List Text := []
  letters : List (Char × Text) := []
  mixed : Bool := true
  deriving Inhabited

namespace Options

def valued (o : Options) : List Text := o.texts ++ o.paths

def bare (o : Options) : List Text := o.flags ++ [("--help" : Text)]

def known (o : Options) : List Text := o.valued ++ o.bare

def flag? (o : Options) (letter : CodePoint) : Option Text :=
  letter.char?.bind fun c => o.letters.lookup c

end Options

/-- `values` has the last option first. -/
structure Parsed where
  values : List (Text × Text) := []
  flags : List Text := []
  arguments : List Text := []
  deriving DecidableEq, Inhabited

namespace Parsed

/-- The value of an option; the last of its values counts. -/
def value? (p : Parsed) (option : Text) : Option Text := p.values.lookup option

def valuedOptions (p : Parsed) : List Text := (p.values.reverse.map (·.1)).eraseDups

def asksHelp (p : Parsed) : Bool := p.flags.contains "--help"

def refusedPath? (o : Options) (p : Parsed) : Option UsageFault :=
  (p.valuedOptions.filter o.paths.contains).findSome? fun n =>
    ((p.value? n).bind fun v => FilePath.fault? (FilePath.normal v)).map (.pathRefused n)

def only (p : Parsed) (name : String) : Except UsageFault Text :=
  match p.arguments with
  | [] => .error (.argumentMissing name)
  | [w] => .ok w
  | _ :: ws => .error (.extraArguments ws)

end Parsed

def splitOption (word : Text) : Text × Option Text :=
  match word.span (· != .char '=') with
  | (name, []) => (name, none)
  | (name, _ :: v) => (name, some v)

def takeLetters (o : Options) (p : Parsed) : Text → Except UsageFault Parsed
  | [] => .ok p
  | c :: cs =>
    match o.flag? c with
    | some flag => takeLetters o { p with flags := flag :: p.flags } cs
    | none => .error (.noSuchOption ['-', c] [])

/-- A dash by itself is an argument. -/
def isOption (word : Text) : Bool := word.head? = some (.char '-') && word ≠ "-"

abbrev ScanFault := UsageFault × List Text

/-- Sorts the words; two dashes end the options. -/
def scan (o : Options) (p : Parsed) : List Text → Except ScanFault Parsed
  | [] => .ok p
  | w :: ws =>
    if w = "--" then .ok { p with arguments := p.arguments ++ ws }
    else if isOption w then
      let (name, tied) := splitOption w
      if o.valued.contains name then
        match tied, ws with
        | some v, ws => scan o { p with values := (name, v) :: p.values } ws
        | none, v :: ws => scan o { p with values := (name, v) :: p.values } ws
        | none, [] => .error (.valueMissing name, [])
      else if o.bare.contains name then
        match tied with
        | some _ => .error (.valueRefused name, ws)
        | none => scan o { p with flags := name :: p.flags } ws
      else if w.take 2 = "--" then .error (.noSuchOption name o.known, ws)
      else
        match takeLetters o p (w.drop 1) with
        | .ok p => scan o p ws
        | .error e => .error (e, ws)
    else if o.mixed then scan o { p with arguments := p.arguments ++ [w] } ws
    else .ok { p with arguments := p.arguments ++ w :: ws }

end DocComment.Cli

import DocComment.Data.Toml
import DocComment.Files
import DocComment.Policy
import DocComment.Text.Blank
import DocComment.Trace

/-! The configuration file, its section of choices about tags, and the policy that comes of it. -/

namespace DocComment

open Data

/-- Yes or no from a value of any kind; a value that tells neither leaves the choice alone. -/
def readChoice (v : Option Value) (unset : Bool) : Bool :=
  match v with
  | some (.bool b) => b
  | some (.int n) => n ≠ 0
  | some (.text s) => (["1", "true", "yes", "on"] : List Text).contains s.trim.lower
  | _ => unset

def Policy.ofSection (choices : Table) : Policy where
  methodTypeParameters := readChoice (choices.get? "method_type_parameters") true
  qualifiedExceptionNames := readChoice (choices.get? "qualified_exception_names") false
  stubPlaceholder :=
    match choices.get? "stub_placeholder" with
    | some (.text s) => s
    | _ => []

/-- A configuration file by its path and what was found there, and how deep the values of its text
may lie when it is read. -/
structure ConfigFile where
  path : Text
  reading : Reading
  room : Nat
  deriving Inhabited

namespace ConfigFile

/-- The file that is named, or else the one of the directory. -/
def locate (directory : Text) (config : Option Text) : Text :=
  match config with
  | some c => FilePath.normal c
  | none => FilePath.join directory "doctags.toml"

/-- The tables of a text and what reading it reports: a malformed one counts as an empty one. -/
def tablesOf (room : Nat) (path : Text) (text : List Char) :
    Except ReadFault (Table × List Event) :=
  match Toml.read room text with
  | .ok t => .ok (t, [])
  | .error .malformed => .ok ([], [.malformed path])
  | .error (.excess e) => .error (.excess e)

/-- The tables of the file and what reading it reports. A file that is not there counts as an empty
one, and so does one that the system does not open. -/
def tables (f : ConfigFile) : Except ReadFault (Table × List Event) :=
  match f.reading with
  | .missing => .ok ([], [])
  | .content bytes =>
    match readText bytes with
    | .ok text => tablesOf f.room f.path text
    | .error e => .error e
  | .unusable e => .error (.path e)
  | r => .ok ([], [.unreadable f.path ((r.reason? f.path).getD [])])

def tagSection (tables : Table) : Table :=
  match tables.get? "tags" with
  | some (.table t) => t
  | _ => []

def policy (f : ConfigFile) (overrides : Table) : Except ReadFault (Policy × List Event) :=
  f.tables.map fun (t, log) => (Policy.ofSection (Table.merge overrides (tagSection t)), log)

end ConfigFile

end DocComment

import DocComment.Data.Fault
import DocComment.Text.Line
import DocComment.Text.Terminal
import DocComment.Text.Utf8

/-! Paths as they are written, what comes of opening one, and a tree of files in memory. -/

namespace DocComment

/-- Why there is no path to look under, or none that a file can have. -/
inductive PathFault
  | noDirectory
  | unencodable (f : Text.EncodeFault)
  | zero
  deriving DecidableEq, Inhabited

def PathFault.message : PathFault → Text
  | .noDirectory => "[Errno 2] No such file or directory"
  | .unencodable f => f.message
  | .zero => "embedded null byte"

inductive Reading
  | content (bytes : List UInt8)
  | missing
  | directory
  | notDirectory
  | nameTooLong
  | unusable (f : PathFault)
  deriving DecidableEq, Inhabited

def Reading.reason? (path : Text) : Reading → Option Text
  | .content _ => none
  | .missing => some ("[Errno 2] No such file or directory: " ++ path.quoted)
  | .directory => some ("[Errno 21] Is a directory: " ++ path.quoted)
  | .notDirectory => some ("[Errno 20] Not a directory: " ++ path.quoted)
  | .nameTooLong => some ("[Errno 36] File name too long: " ++ path.quoted)
  | .unusable _ => none

/-- What stops a run that reads a file, where a file that is not there would not. -/
inductive ReadFault
  | path (f : PathFault)
  | encoding (f : Text.Utf8.Fault)
  | excess (e : Data.Excess)
  deriving DecidableEq, Inhabited

def ReadFault.message : ReadFault → Text
  | .path f => f.message
  | .encoding f => f.message
  | .excess e => e.message

def readText (bytes : List UInt8) : Except ReadFault (List Char) :=
  match Text.Utf8.decode bytes with
  | .ok cs => .ok (Text.unifyBreaks cs)
  | .error f => .error (.encoding f)

namespace FilePath

/-- The steps of a path; those that stay where they are do not count. -/
def steps (path : Text) : List Text :=
  (Text.pieces (.char '/') path).filter fun s => s ≠ [] ∧ s ≠ "."

/-- The slashes that a path starts with: two stay two, more are one. -/
def root (path : Text) : Text :=
  match (path.takeWhile (· == .char '/')).length with
  | 0 => []
  | 2 => "//"
  | _ => "/"

/-- A path without empty steps and steps to where one is. -/
def normal (path : Text) : Text :=
  let joined := root path ++ List.intercalate "/" (steps path)
  if joined = [] then "." else joined

def join (directory file : Text) : Text :=
  let d := normal directory
  if d.getLast? = some (.char '/') then d ++ file else normal (d ++ "/" ++ file)

/-- The halves that stand for the bytes of a name that are no UTF-8. -/
def isByte (n : Fin 0x800) : Bool := 0x480 ≤ n.val && n.val < 0x500

def byteCount (path : Text) : Nat :=
  path.foldl (fun n c => n + match c with
    | .char c => c.utf8Size
    | .half _ => 1) 0

def fault? (path : Text) : Option PathFault :=
  match Text.encodeFault? isByte 0 path with
  | some f => some (.unencodable f)
  | none => if path.contains (.char '\x00') then some .zero else none

def longestPath : Nat := 4095

def longestStep : Nat := 255

end FilePath

/-- A tree of files, each under the steps of its path, and of directories that may be empty. -/
structure FileTree where
  files : List (List Text × List UInt8) := []
  directories : List (List Text) := []
  deriving Inhabited

namespace FileTree

/-- A directory is there when it is given or something lies below it. -/
def isDirectory (t : FileTree) (place : List Text) : Bool :=
  place.isEmpty || t.directories.any place.isPrefixOf ||
    t.files.any fun f => place.isPrefixOf f.1 && place ≠ f.1

def file? (t : FileTree) (place : List Text) : Option (List UInt8) := t.files.lookup place

def isTooLong (step : Text) : Bool := FilePath.longestStep < FilePath.byteCount step

/-- What lies outside the tree. Nothing is known of it but the directories that enclose the tree. -/
def outside : List Text → Reading
  | [] => .directory
  | s :: steps =>
    if s = ".." then outside steps else if isTooLong s then .nameTooLong else .missing

def walk (t : FileTree) (place : List Text) : List Text → Reading
  | [] =>
    match t.file? place with
    | some bytes => .content bytes
    | none => if t.isDirectory place then .directory else .missing
  | s :: steps =>
    if t.isDirectory place then
      if s = ".." then
        if place = [] then outside steps else walk t place.dropLast steps
      else if isTooLong s then .nameTooLong
      else walk t (place ++ [s]) steps
    else if (t.file? place).isSome then .notDirectory
    else .missing

def read (t : FileTree) (path : Text) : Reading :=
  match FilePath.fault? path with
  | some f => .unusable f
  | none =>
    if FilePath.longestPath < FilePath.byteCount path then .nameTooLong
    else if FilePath.root path = [] then t.walk [] (FilePath.steps path)
    else outside (FilePath.steps path)

end FileTree

end DocComment

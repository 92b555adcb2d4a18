import DocComment.Cli

/-! The program: the command line on the files and the streams of the system. -/

open DocComment

namespace DocComment.Main

/-- What the file system has under a path. The error names the path where it leads through a file,
and does not where a directory was opened and could not be read. -/
def openNamed (path : String) : IO Reading := do
  try
    return .content (← IO.FS.readBinFile path).toList
  catch e =>
    match e with
    | .inappropriateType (some _) .. => return .notDirectory
    | .inappropriateType none .. => return .directory
    | .invalidArgument .. => return .nameTooLong
    | _ => return .missing

/-- Names that are no text are not looked for. -/
def openFile (path : Text) : IO Reading :=
  match FilePath.fault? path, path.encode with
  | some f, _ => return .unusable f
  | none, .ok name => openNamed name
  | none, .error _ => return .missing

def readLines (input : IO.FS.Stream) : Nat → IO String
  | 0 => return ""
  | bound + 1 => do
    let line ← input.getLine
    if line.isEmpty then return "" else return line ++ (← readLines input bound)

/-- All of the standard input, up to a number of lines that no payload reaches. -/
def readInput : IO (List Char) := do
  return (← readLines (← IO.getStdin) (Nat.pow 2 32)).toList

def faultText : CommandFault → Text
  | .reading f => f.message
  | .plan .unwritable => "an integer has too many digits to be told."
  | .plan _ => "the declaration is of no kind that can be documented."

/-- How deep values may lie in what is read; no payload or configuration of use comes near it. -/
def room : Nat := 980

def fail (message : Text) (code : UInt32) : IO UInt32 := do
  IO.eprintln ("Error: " ++ String.ofList message.showHalves)
  return code

end DocComment.Main

def main (args : List String) : IO UInt32 := do
  match ← Cli.run Main.room Main.openFile Main.readInput (args.map Text.ofString) with
  | .ok o =>
    IO.eprint o.stderr
    IO.print o.stdout
    return UInt32.ofNat o.exitCode
  | .error (.usage f) => Main.fail f.message 2
  | .error (.command f) => Main.fail (Main.faultText f) 1
  | .error (.output f) => Main.fail f.message 1

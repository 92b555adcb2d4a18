import DocComment.Text.Quoted

/-! Texts on their way to a terminal or to a stream of bytes: control sequences are taken out,
control characters of a command line are shown by their codes, and halves of surrogate pairs are
either shown by their codes or refused. -/

namespace DocComment.Text

def escape : CodePoint := '\x1b'

/-- What may stand between the opening of a control sequence and its letter. -/
def isParameter (c : CodePoint) : Bool :=
  (48 ≤ c.code && c.code ≤ 57) || c == .char ';' || c == .char '?'

def isLetter (c : CodePoint) : Bool :=
  (65 ≤ c.code && c.code ≤ 90) || (97 ≤ c.code && c.code ≤ 122)

/-- `held` is what may turn out to be a control sequence, newest first: an escape, a bracket and
parameters. -/
def dropSequencesFrom (held : Text) : Text → Text
  | [] => held.reverse
  | c :: r =>
    if c = escape then held.reverse ++ dropSequencesFrom [c] r
    else
      match held with
      | [] => c :: dropSequencesFrom [] r
      | [_] =>
        if c = .char '[' then dropSequencesFrom (c :: held) r
        else held.reverse ++ c :: dropSequencesFrom [] r
      | _ =>
        if isParameter c then dropSequencesFrom (c :: held) r
        else if isLetter c then dropSequencesFrom [] r
        else held.reverse ++ c :: dropSequencesFrom [] r

def dropSequences (s : Text) : Text := dropSequencesFrom [] s

def isControl (n : Nat) : Bool := n < 32 || (127 ≤ n && n < 160)

def showControls (s : Text) : Text :=
  s.flatMap fun c => if isControl c.code then codeEscape c.code else [c]

def showHalves (s : Text) : List Char :=
  s.flatMap fun
    | .char c => [c]
    | .half n => '\\' :: 'u' :: places 16 4 (0xD800 + n)

structure EncodeFault where
  position : Nat
  first : Fin 0x800
  more : Nat
  deriving DecidableEq, Inhabited

def EncodeFault.message (f : EncodeFault) : Text :=
  let place : Text :=
    if f.more = 0 then
      "character '" ++ codeEscape (CodePoint.half f.first).code ++ "' in position " ++
        toString f.position
    else "characters in position " ++ toString f.position ++ "-" ++ toString (f.position + f.more)
  "'utf-8' codec can't encode " ++ place ++ ": surrogates not allowed"

def isHalf (c : CodePoint) : Bool := c.char?.isNone

/-- The fault of a text that starts at `position`, where halves with `spare` are let through. -/
def encodeFault? (spare : Fin 0x800 → Bool) (position : Nat) : Text → Option EncodeFault
  | [] => none
  | .char _ :: r => encodeFault? spare (position + 1) r
  | .half n :: r =>
    if spare n then encodeFault? spare (position + 1) r
    else some { position, first := n, more := (r.takeWhile isHalf).length }

def encode (s : Text) : Except EncodeFault String :=
  match encodeFault? (fun _ => false) 0 s with
  | some f => .error f
  | none => .ok (String.ofList (s.filterMap CodePoint.char?))

end DocComment.Text

import DocComment.Text.Digit

/-! Strings and keys of TOML. Basic strings have escapes and literal ones have none; a string
between triple quotes may run over several lines and end with two quotes of its own. -/

namespace DocComment.Data.Toml

open DocComment.Text

def isBlank (c : Char) : Bool := c == ' ' || c == '\t'

def isBlankOrBreak (c : Char) : Bool := isBlank c || c == '\n'

/-- Control characters, which stand nowhere but for a tab, and a line feed where lines may end. -/
def isForbidden (multiline : Bool) (c : Char) : Bool :=
  (c.toNat < 32 || c.toNat == 127) && c != '\t' && !(multiline && c == '\n')

def readCodePoint (width : Nat) (s : List Char) : Option (Char × List Char) :=
  match (s.take width).mapM hexValue? with
  | some ds =>
    let n := natOf 16 ds
    if ds.length = width ∧ n.isValidChar then some (Char.ofNat n, s.drop width) else none
  | none => none

/-- What follows a backslash: a character, or nothing for the end of a line together with the white
space after it. -/
def readEscape (multiline : Bool) (s : List Char) : Option (Option Char × List Char) :=
  match s with
  | [] => none
  | c :: r =>
    if multiline ∧ isBlankOrBreak c = true then
      match s.dropWhile isBlank with
      | '\n' :: r => some (none, r.dropWhile isBlankOrBreak)
      | _ => none
    else
      match c with
      | 'u' => (readCodePoint 4 r).map fun (x, r) => (some x, r)
      | 'U' => (readCodePoint 8 r).map fun (x, r) => (some x, r)
      | 'b' => some (some '\x08', r)
      | 't' => some (some '\t', r)
      | 'n' => some (some '\n', r)
      | 'f' => some (some '\x0c', r)
      | 'r' => some (some '\r', r)
      | '"' => some (some '"', r)
      | '\\' => some (some '\\', r)
      | _ => none

/-- A basic string up to its closing quotes; `acc` holds what is read, newest first. Every step
takes a character at least, so that the length of the text is fuel enough. -/
def readBasic (multiline : Bool) : Nat → List Char → List Char → Option (List Char × List Char)
  | 0, _, _ => none
  | fuel + 1, acc, s =>
    match s with
    | [] => none
    | '"' :: r =>
      if multiline then
        match r with
        | '"' :: '"' :: r => some (acc.reverse, r)
        | _ => readBasic multiline fuel ('"' :: acc) r
      else some (acc.reverse, r)
    | '\\' :: r =>
      match readEscape multiline r with
      | some (some c, r) => readBasic multiline fuel (c :: acc) r
      | some (none, r) => readBasic multiline fuel acc r
      | none => none
    | c :: r => if isForbidden multiline c then none else readBasic multiline fuel (c :: acc) r

def readLiteral (multiline : Bool) (acc : List Char) : List Char → Option (List Char × List Char)
  | [] => none
  | '\'' :: '\'' :: '\'' :: r =>
    if multiline then some (acc.reverse, r) else some (acc.reverse, '\'' :: '\'' :: r)
  | '\'' :: r => if multiline then readLiteral multiline ('\'' :: acc) r else some (acc.reverse, r)
  | c :: r => if isForbidden multiline c then none else readLiteral multiline (c :: acc) r

/-- Up to two quotes right after the closing ones belong to the string. -/
def takeTail (quote : Char) (body : List Char × List Char) : List Char × List Char :=
  let own := (body.2.take 2).takeWhile (· == quote)
  (body.1 ++ own, body.2.drop own.length)

/-- A line feed right after opening triple quotes is left out. -/
def dropFirstBreak (s : List Char) : List Char :=
  match s with
  | '\n' :: r => r
  | _ => s

def textOf (body : List Char × List Char) : Text × List Char := (Text.ofChars body.1, body.2)

def readString (s : List Char) : Option (Text × List Char) :=
  match s with
  | '"' :: '"' :: '"' :: r =>
    (readBasic true (r.length + 1) [] (dropFirstBreak r)).map (textOf ∘ takeTail '"')
  | '"' :: r => (readBasic false (r.length + 1) [] r).map textOf
  | '\'' :: '\'' :: '\'' :: r =>
    (readLiteral true [] (dropFirstBreak r)).map (textOf ∘ takeTail '\'')
  | '\'' :: r => (readLiteral false [] r).map textOf
  | _ => none

def isBareKeyChar (c : Char) : Bool := c.isAlphanum || c == '-' || c == '_'

def readKeyPart (s : List Char) : Option (Text × List Char) :=
  match s with
  | '"' :: r => (readBasic false (r.length + 1) [] r).map textOf
  | '\'' :: r => (readLiteral false [] r).map textOf
  | _ =>
    match s.span isBareKeyChar with
    | ([], _) => none
    | (cs, r) => some (Text.ofChars cs, r)

def readKey : Nat → List Char → Option (List Text × List Char)
  | 0, _ => none
  | fuel + 1, s =>
    match readKeyPart s with
    | none => none
    | some (k, r) =>
      match r.dropWhile isBlank with
      | '.' :: r => (readKey fuel (r.dropWhile isBlank)).map fun (ks, r) => (k :: ks, r)
      | r => some ([k], r)

end DocComment.Data.Toml

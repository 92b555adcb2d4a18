import DocComment.Text.Basic

/-! Blank characters and what is taken off the two ends of a text. The classes are told by the code
of a character. -/

namespace DocComment.Text

/-- The white space of Unicode together with the four separators U+001C to U+001F. -/
def isBlank (n : Nat) : Bool :=
  (9 ≤ n && n ≤ 13) || (28 ≤ n && n ≤ 32) || n == 0x85 || n == 0xA0 || n == 0x1680 ||
    (0x2000 ≤ n && n ≤ 0x200A) || n == 0x2028 || n == 0x2029 || n == 0x202F || n == 0x205F ||
    n == 0x3000

/-- The white space of Unicode alone. -/
def isSpace (n : Nat) : Bool := isBlank n && !(28 ≤ n && n ≤ 31)

def trimBy {α : Type} (p : α → Bool) (s : List α) : List α :=
  ((s.dropWhile p).reverse.dropWhile p).reverse

def trim (s : Text) : Text := trimBy (isBlank ·.code) s

/-- Small letters for the letters of ASCII. It decides a comparison with a word of ASCII letters
other than `k`, as no character outside ASCII has one of those for its small letter. -/
def lower (s : Text) : Text :=
  s.map fun
    | .char c => .char c.toLower
    | .half n => .half n

end DocComment.Text

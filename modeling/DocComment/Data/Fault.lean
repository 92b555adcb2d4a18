import DocComment.Text.Digit

/-! Why a text is not read: it breaks the grammar of its format, or it goes beyond the sizes that
are read. The latter is reported even where a text that breaks the grammar is passed over. -/

namespace DocComment.Data

inductive Container
  | array | object
  deriving DecidableEq, Inhabited

def Container.word : Container → String
  | .array => "array"
  | .object => "object"

/-- `depth` names the container that lies too deep where the format is JSON. -/
inductive Excess
  | digits (count : Nat)
  | depth (container : Option Container)
  deriving DecidableEq, Inhabited

def Excess.message : Excess → String
  | .digits n =>
    "Exceeds the limit (" ++ toString Text.digitLimit ++
      " digits) for integer string conversion: value has " ++ toString n ++
      " digits; use sys.set_int_max_str_digits() to increase the limit"
  | .depth none => "maximum recursion depth exceeded"
  | .depth (some c) =>
    "maximum recursion depth exceeded while decoding a JSON " ++ c.word ++
      " from a unicode string"

inductive Fault
  | malformed
  | excess (e : Excess)
  deriving DecidableEq, Inhabited

end DocComment.Data

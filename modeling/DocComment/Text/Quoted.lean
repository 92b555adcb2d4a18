import DocComment.Text.Digit
import DocComment.Text.Printable

/-! A text between quotes for a message: what cannot be printed is escaped by its code, and double
quotes are taken only where the text holds single ones and no double ones. -/

namespace DocComment.Text

def quoteFor (s : Text) : CodePoint :=
  if s.contains (.char '\'') && !s.contains (.char '"') then '"' else '\''

def codeEscape (n : Nat) : Text :=
  if n < 0x100 then "\\x" ++ ofChars (places 16 2 n)
  else if n < 0x10000 then "\\u" ++ ofChars (places 16 4 n)
  else "\\U" ++ ofChars (places 16 8 n)

def shown (quote c : CodePoint) : Text :=
  if c = quote ∨ c = .char '\\' then ['\\', c]
  else if c = .char '\n' then "\\n"
  else if c = .char '\r' then "\\r"
  else if c = .char '\t' then "\\t"
  else if isPrintable c.code then [c]
  else codeEscape c.code

def quoted (s : Text) : Text :=
  let q := quoteFor s
  q :: (s.flatMap (shown q) ++ [q])

end DocComment.Text

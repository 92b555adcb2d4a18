/-! Texts as sequences of code points. A code point is a character, or one half of a surrogate pair
that stands by itself: an escape in a payload can write it, and no file can hold it. -/

namespace DocComment

inductive CodePoint
  | char (c : Char)
  | half (n : Fin 0x800)
  deriving DecidableEq, Inhabited

namespace CodePoint

/-- The halves of surrogate pairs have the codes from U+D800 to U+DFFF. -/
def code : CodePoint → Nat
  | .char c => c.toNat
  | .half n => 0xD800 + n

def ofCode (n : Nat) : CodePoint :=
  if h : 0xD800 ≤ n ∧ n < 0xE000 then .half ⟨n - 0xD800, by omega⟩ else .char (Char.ofNat n)

def char? : CodePoint → Option Char
  | .char c => some c
  | .half _ => none

instance : Coe Char CodePoint := ⟨.char⟩

end CodePoint

abbrev Text := List CodePoint

namespace Text

def ofChars (cs : List Char) : Text := cs.map .char

def ofString (s : String) : Text := ofChars s.toList

instance : Coe String Text := ⟨ofString⟩

def chars? : Text → Option (List Char)
  | [] => some []
  | p :: r =>
    match p.char?, chars? r with
    | some c, some cs => some (c :: cs)
    | _, _ => none

def precedes : Text → Text → Bool
  | [], _ => true
  | _ :: _, [] => false
  | a :: as, b :: bs => a.code < b.code || (a.code == b.code && precedes as bs)

end Text

end DocComment

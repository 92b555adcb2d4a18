import DocComment.Text.Digit

/-! UTF-8: the text of a sequence of bytes, or the first fault in it. A fault covers the bytes from
the lead byte up to the last one that could still belong to a character. -/

namespace DocComment.Text.Utf8

inductive Cause
  | startByte | continuation | endOfData
  deriving DecidableEq, Inhabited

def Cause.words : Cause → String
  | .startByte => "invalid start byte"
  | .continuation => "invalid continuation byte"
  | .endOfData => "unexpected end of data"

/-- `run` holds the faulty bytes, which start at `position`. -/
structure Fault where
  position : Nat
  run : List UInt8
  cause : Cause
  deriving DecidableEq, Inhabited

def Fault.message (f : Fault) : String :=
  let place := match f.run with
    | [b] =>
      "byte 0x" ++ String.ofList (places 16 2 b.toNat) ++ " in position " ++ toString f.position
    | run =>
      "bytes in position " ++ toString f.position ++ "-" ++ toString (f.position + run.length - 1)
  "'utf-8' codec can't decode " ++ place ++ ": " ++ f.cause.words

/-- How many bytes follow a lead byte, and the least and the greatest that the next one may be. -/
def lead (b : UInt8) : Option (Nat × UInt8 × UInt8) :=
  if b < 0x80 then some (0, 0x80, 0xBF)
  else if b < 0xC2 then none
  else if b < 0xE0 then some (1, 0x80, 0xBF)
  else if b = 0xE0 then some (2, 0xA0, 0xBF)
  else if b = 0xED then some (2, 0x80, 0x9F)
  else if b < 0xF0 then some (2, 0x80, 0xBF)
  else if b = 0xF0 then some (3, 0x90, 0xBF)
  else if b < 0xF4 then some (3, 0x80, 0xBF)
  else if b = 0xF4 then some (3, 0x80, 0x8F)
  else none

def leadBits (b : UInt8) (follow : Nat) : Nat :=
  if follow = 0 then b.toNat else b.toNat % Nat.pow 2 (6 - follow)

/-- A character half read: the bytes of it so far, newest first, its bits so far, how many bytes it
still lacks, and the range of the next one. -/
structure HalfRead where
  seen : List UInt8
  bits : Nat
  missing : Nat
  low : UInt8
  high : UInt8
  deriving Inhabited

def decodeFrom (position : Nat) (p : Option HalfRead) : List UInt8 → Except Fault (List Char)
  | [] =>
    match p with
    | none => .ok []
    | some p => .error ⟨position - p.seen.length, p.seen.reverse, .endOfData⟩
  | b :: r =>
    match p with
    | none =>
      match lead b with
      | none => .error ⟨position, [b], .startByte⟩
      | some (0, _) => (decodeFrom (position + 1) none r).map (Char.ofNat b.toNat :: ·)
      | some (n, low, high) =>
        decodeFrom (position + 1) (some ⟨[b], leadBits b n, n, low, high⟩) r
    | some p =>
      if p.low ≤ b ∧ b ≤ p.high then
        let bits := p.bits * 64 + b.toNat % 64
        if p.missing ≤ 1 then (decodeFrom (position + 1) none r).map (Char.ofNat bits :: ·)
        else
          decodeFrom (position + 1) (some ⟨b :: p.seen, bits, p.missing - 1, 0x80, 0xBF⟩) r
      else .error ⟨position - p.seen.length, p.seen.reverse, .continuation⟩

theorem decodeFrom_of_ascii {bytes : List UInt8} (h : ∀ b ∈ bytes, b < 0x80)
    (position : Nat) : decodeFrom position none bytes =
      .ok (bytes.map fun b => Char.ofNat b.toNat) := by
  induction bytes generalizing position with
  | nil => rfl
  | cons b r ih =>
    have hb : lead b = some (0, 0x80, 0xBF) := if_pos (h b List.mem_cons_self)
    have hr := ih (fun c hc => h c (List.mem_cons_of_mem _ hc)) (position + 1)
    simp only [decodeFrom, hb, hr]
    rfl

def decode (bytes : List UInt8) : Except Fault (List Char) := decodeFrom 0 none bytes

end DocComment.Text.Utf8

import Strata.Text.Digit

/-!
# Decoding UTF-8

`decode` reads a whole byte sequence and `decodeStream` one that arrives piece by piece; both accept the
same sequences and differ only in where they say that a cut-off sequence stands. A fault carries the
bytes that do not decode, where they start, and why they do not.
-/

namespace Strata.Text.Utf8

/-- Why some bytes do not decode. -/
inductive Reason where
  /-- The byte can start no sequence. -/
  | invalidStart
  /-- The byte after those named does not continue their sequence. -/
  | invalidContinuation
  /-- The input ends inside the sequence. -/
  | unexpectedEnd
  deriving Repr, DecidableEq

/-- The first place where some bytes do not decode. -/
structure Fault where
  /-- The position of the first byte that does not decode. -/
  offset : Nat
  /-- That byte. -/
  first : UInt8
  /-- How many bytes of a well-begun sequence follow it before the fault. -/
  more : Nat
  reason : Reason
  deriving Repr, DecidableEq

/-- The reason in words. -/
def Reason.message : Reason → String
  | .invalidStart => "invalid start byte"
  | .invalidContinuation => "invalid continuation byte"
  | .unexpectedEnd => "unexpected end of data"

/-- Two lower-case hexadecimal digits. -/
def hexByte (b : UInt8) : String :=
  String.ofList (hexDigits 2 b.toNat)

/-- The fault in words. A single byte is shown, several are only located. -/
def Fault.message (f : Fault) : String :=
  let place :=
    if f.more = 0 then
      "byte 0x" ++ hexByte f.first ++ " in position " ++ toString f.offset
    else
      "bytes in position " ++ toString f.offset ++ "-" ++ toString (f.offset + f.more)
  "'utf-8' codec can't decode " ++ place ++ ": " ++ f.reason.message

/-- Where a decoder stands. -/
inductive State where
  | ready
  /-- Inside a sequence that began with `first`; `more` bytes followed, `missing` are still to come, and
  the next one must lie between `low` and `high`. -/
  | within (first : UInt8) (more missing value low high : Nat)
  deriving Repr, DecidableEq

/-- The state after a byte that starts a sequence of several; `none` if `b` cannot. The second byte is
restricted so that nothing has two encodings and no surrogate has one. -/
def start? (b : UInt8) : Option State :=
  let n := b.toNat
  if 0xC2 ≤ n ∧ n ≤ 0xDF then some (.within b 0 1 (n - 0xC0) 0x80 0xBF)
  else if n = 0xE0 then some (.within b 0 2 0 0xA0 0xBF)
  else if n = 0xED then some (.within b 0 2 (n - 0xE0) 0x80 0x9F)
  else if 0xE1 ≤ n ∧ n ≤ 0xEF then some (.within b 0 2 (n - 0xE0) 0x80 0xBF)
  else if n = 0xF0 then some (.within b 0 3 0 0x90 0xBF)
  else if n = 0xF4 then some (.within b 0 3 (n - 0xF0) 0x80 0x8F)
  else if 0xF1 ≤ n ∧ n ≤ 0xF3 then some (.within b 0 3 (n - 0xF0) 0x80 0xBF)
  else none

/-- One byte read at `offset`: the character it completes, if any, and the state after it. -/
def step (offset : Nat) (b : UInt8) : State → Except Fault (Option Char × State)
  | .ready =>
    if b.toNat < 0x80 then .ok (some (Char.ofNat b.toNat), .ready)
    else match start? b with
      | some st => .ok (none, st)
      | none => .error ⟨offset, b, 0, .invalidStart⟩
  | .within first more missing value low high =>
    if low ≤ b.toNat ∧ b.toNat ≤ high then
      let value := value * 64 + (b.toNat - 0x80)
      if missing = 1 then .ok (some (Char.ofNat value), .ready)
      else .ok (none, .within first (more + 1) (missing - 1) value 0x80 0xBF)
    else .error ⟨offset - 1 - more, first, more, .invalidContinuation⟩

/-- The characters of the bytes from `offset` on, after those of `found`, which is in reverse. -/
def decodeFrom (offset : Nat) (found : List Char) : State → List UInt8 → Except Fault (List Char)
  | .ready, [] => .ok found.reverse
  | .within first more _ _ _ _, [] => .error ⟨offset - 1 - more, first, more, .unexpectedEnd⟩
  | st, b :: bs =>
    match step offset b st with
    | .error f => .error f
    | .ok (some c, st') => decodeFrom (offset + 1) (c :: found) st' bs
    | .ok (none, st') => decodeFrom (offset + 1) found st' bs

/-- The text that the bytes encode. -/
def decode (bytes : ByteArray) : Except Fault String :=
  (decodeFrom 0 [] .ready bytes.data.toList).map String.ofList

/-- The text that a stream of bytes encodes. A sequence that the end of the stream cuts off is found
only when nothing else is left, and so it stands at the start of what is left. -/
def decodeStream (bytes : ByteArray) : Except Fault String :=
  match decode bytes with
  | .error f => .error (if f.reason = .unexpectedEnd then { f with offset := 0 } else f)
  | .ok s => .ok s

end Strata.Text.Utf8

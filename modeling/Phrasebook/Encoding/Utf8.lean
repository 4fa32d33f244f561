import Phrasebook.Text.Basic

/-!
# UTF-8

Text is written as UTF-8 and read back byte by byte. The reader never gives up: a byte that cannot
continue the sequence begun before it ends that sequence as ill-formed and is read again as the
beginning of the next one, so each longest ill-formed part counts once. The result is a list of
characters with `none` for each ill-formed part, from which the lenient and the strict reading both
follow.
-/

namespace Phrasebook

abbrev Bytes := List UInt8

namespace Utf8

def encode (t : Text) : Bytes := t.flatMap String.utf8EncodeChar

/-- A sequence that is not complete: how many bytes it is short of, the bounds of the next one, and
the value of the bits read. -/
structure Pending where
  missing : Nat
  low : Nat
  high : Nat
  value : Nat
deriving Repr, DecidableEq

/-- What one byte leads to. -/
inductive Reading
  | char (c : Char)
  | pending (p : Pending)
  | illFormed
deriving Repr, DecidableEq

/-- The first byte of a sequence. The bounds on the second byte leave out overlong forms,
surrogates and values above U+10FFFF. -/
def first (byte : UInt8) : Reading :=
  let b := byte.toNat
  if b < 0x80 then .char (Char.ofNat b)
  else if b < 0xC2 then .illFormed
  else if b < 0xE0 then .pending ⟨1, 0x80, 0xBF, b - 0xC0⟩
  else if b < 0xF0 then
    .pending ⟨2, if b = 0xE0 then 0xA0 else 0x80, if b = 0xED then 0x9F else 0xBF, b - 0xE0⟩
  else if b < 0xF5 then
    .pending ⟨3, if b = 0xF0 then 0x90 else 0x80, if b = 0xF4 then 0x8F else 0xBF, b - 0xF0⟩
  else .illFormed

def Pending.next (p : Pending) (byte : UInt8) : Reading :=
  let b := byte.toNat
  if b < p.low || p.high < b then .illFormed
  else
    let value := p.value * 64 + (b - 0x80)
    if p.missing ≤ 1 then .char (Char.ofNat value)
    else .pending ⟨p.missing - 1, 0x80, 0xBF, value⟩

/-- What the reader gives out, and the sequence it is left with. -/
def Reading.result : Reading → List (Option Char) × Option Pending
  | .char c => ([some c], none)
  | .pending p => ([], some p)
  | .illFormed => ([none], none)

def advance : Option Pending → UInt8 → List (Option Char) × Option Pending
  | none, byte => (first byte).result
  | some p, byte =>
    match p.next byte with
    | .illFormed => let (read, rest) := (first byte).result; (none :: read, rest)
    | reading => reading.result

/-- Reads on from a state; a sequence left open by the last byte is ill-formed. -/
def readFrom : Option Pending → Bytes → List (Option Char)
  | none, [] => []
  | some _, [] => [none]
  | state, byte :: bytes => (advance state byte).1 ++ readFrom (advance state byte).2 bytes

/-- The characters, with `none` for each ill-formed part. -/
def read (bytes : Bytes) : List (Option Char) := readFrom none bytes

def endsOpen (bytes : Bytes) : Bool :=
  (bytes.foldl (fun state byte => (advance state byte).2) none).isSome

/-- The lenient reading: each ill-formed part becomes one replacement character. -/
def decodeLossy (bytes : Bytes) : Text := (read bytes).map (·.getD '\uFFFD')

/-- The number of bytes before the first ill-formed part. -/
def validLength (bytes : Bytes) : Nat :=
  (encode (((read bytes).takeWhile Option.isSome).filterMap id)).length

/-- The strict reading: the text, or the number of bytes before the first ill-formed part. -/
def decode (bytes : Bytes) : Except Nat Text :=
  if (read bytes).all Option.isSome then .ok ((read bytes).filterMap id)
  else .error (validLength bytes)

end Utf8

end Phrasebook

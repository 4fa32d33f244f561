import Phrasebook.Encoding.Utf8

namespace Phrasebook

/-- Which byte of a unit comes first. -/
inductive ByteOrder
  | littleEndian
  | bigEndian
deriving Repr, DecidableEq

namespace Utf16

def unit : ByteOrder → UInt8 → UInt8 → Nat
  | .littleEndian, a, b => b.toNat * 256 + a.toNat
  | .bigEndian, a, b => a.toNat * 256 + b.toNat

def unitBytes (order : ByteOrder) (u : Nat) : Bytes :=
  match order with
  | .littleEndian => [UInt8.ofNat (u % 256), UInt8.ofNat (u / 256)]
  | .bigEndian => [UInt8.ofNat (u / 256), UInt8.ofNat (u % 256)]

/-- The units of a character: one in the basic plane, else a pair of surrogates. -/
def charUnits (c : Char) : List Nat :=
  if c.toNat < 0x10000 then [c.toNat]
  else [0xD800 + (c.toNat - 0x10000) / 0x400, 0xDC00 + (c.toNat - 0x10000) % 0x400]

def encode (order : ByteOrder) (t : Text) : Bytes :=
  t.flatMap fun c => (charUnits c).flatMap (unitBytes order)

/-- Surrogates that begin a pair. -/
def isLeading (u : Nat) : Bool := 0xD800 ≤ u && u < 0xDC00

/-- Surrogates that end a pair. -/
def isTrailing (u : Nat) : Bool := 0xDC00 ≤ u && u < 0xE000

def pairChar (lead trail : Nat) : Char :=
  Char.ofNat (0x10000 + (lead - 0xD800) * 0x400 + (trail - 0xDC00))

/-- The character of a unit that is half of no pair. -/
def singleChar (u : Nat) : Char := if isTrailing u then '\uFFFD' else Char.ofNat u

def decodeLossy (order : ByteOrder) : Bytes → Text
  | [] => []
  | [_] => ['\uFFFD']
  | a :: b :: bytes =>
    if isLeading (unit order a b) then
      match bytes with
      | c :: d :: rest =>
        if isTrailing (unit order c d) then
          pairChar (unit order a b) (unit order c d) :: decodeLossy order rest
        else '\uFFFD' :: decodeLossy order (c :: d :: rest)
      | _ => ['\uFFFD']
    else singleChar (unit order a b) :: decodeLossy order bytes

/-- Whether the bytes end within a unit or a pair. -/
def endsOpen (order : ByteOrder) : Bytes → Bool
  | [] => false
  | [_] => true
  | a :: b :: bytes => if bytes.isEmpty then isLeading (unit order a b) else endsOpen order bytes

end Utf16

end Phrasebook

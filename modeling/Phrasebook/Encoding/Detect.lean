import Phrasebook.Encoding.Utf16

/-!
# Detecting the encoding

The byte order mark at the beginning of a file says how it is encoded; without one the file is
UTF-8. The mark that decides is no part of the text, and neither is a second one right after it. A
third one is text, but where nothing comes after it except a character that the end of the file cuts
off, there is no text at all.
-/

namespace Phrasebook

inductive Encoding
  | utf8
  | utf16 (order : ByteOrder)
deriving Repr, DecidableEq

/-- The byte order mark, which is also the character U+FEFF. -/
def byteOrderMark : Char := '\uFEFF'

namespace Encoding

def encode : Encoding → Text → Bytes
  | .utf8, t => Utf8.encode t
  | .utf16 order, t => Utf16.encode order t

def mark (e : Encoding) : Bytes := e.encode [byteOrderMark]

/-- The lenient reading, which replaces what is ill-formed. -/
def decodeLossy : Encoding → Bytes → Text
  | .utf8, bytes => Utf8.decodeLossy bytes
  | .utf16 order, bytes => Utf16.decodeLossy order bytes

/-- Whether the end of the bytes cuts a character off. -/
def endsOpen : Encoding → Bytes → Bool
  | .utf8, bytes => Utf8.endsOpen bytes
  | .utf16 order, bytes => Utf16.endsOpen order bytes

/-- The encodings that a mark can announce. -/
def all : List Encoding := [.utf8, .utf16 .littleEndian, .utf16 .bigEndian]

/-- The encoding of a file and the bytes after its mark. -/
def detect (bytes : Bytes) : Encoding × Bytes :=
  match all.find? (·.mark.isPrefixOf bytes) with
  | some e => (e, bytes.drop e.mark.length)
  | none => (.utf8, bytes)

end Encoding

def Text.dropMark : Text → Text
  | [] => []
  | c :: t => if c = byteOrderMark then t else c :: t

/-- The text of a file in whichever encoding it announces. -/
def textOfBytes (bytes : Bytes) : Text :=
  let (encoding, rest) := Encoding.detect bytes
  let text := (encoding.decodeLossy rest).dropMark
  if text == [byteOrderMark, '\uFFFD'] && encoding.endsOpen rest then [] else text

end Phrasebook

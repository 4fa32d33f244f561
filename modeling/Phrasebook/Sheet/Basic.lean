import Phrasebook.Encoding.Detect
import Phrasebook.Problem
import Phrasebook.Sheet.Record

/-!
# Sheets

A sheet is a header and rows of cells, read from the bytes of a spreadsheet export. The bytes are
first taken as text in whichever encoding they announce; the records are then read from that text
in UTF-8, since the delimiter is a byte. A row that cannot be read is a fault of its own and does
not hide the rows after it.
-/

namespace Phrasebook

structure SheetOptions where
  /-- The byte between two cells, a comma or a tab in most exports. -/
  delimiter : UInt8 := 44
  /-- Accept rows with another number of cells than the header. -/
  flexible : Bool := false
deriving Repr, DecidableEq

abbrev Row := List Text

/-- A sheet as it was read: a header with a cell that is not empty, and the rows below it. -/
structure Sheet where
  header : Row
  rows : List (Except Problem Row)

def RecordPlace.after (place : RecordPlace) (raw : Bytes) : RecordPlace :=
  ⟨place.record + 1, place.line + raw.count 10, place.byte + raw.length⟩

namespace Sheet

/-- The meaning of bytes in a sheet with a given delimiter. -/
def dialect (delimiter : UInt8) : Dialect UInt8 :=
  { quote := 34, delimiter := delimiter, carriageReturn := 13, lineFeed := 10 }

/-- The records of a text in UTF-8. A byte order mark before the first record belongs to it but to
none of its cells. -/
def records (delimiter : UInt8) (bytes : Bytes) : List (Record UInt8) :=
  let mark := Encoding.mark .utf8
  if mark.isPrefixOf bytes then
    Record.scanFrom (dialect delimiter) mark.reverse none (bytes.drop mark.length)
  else Record.scan (dialect delimiter) bytes

/-- Each record with the place it begins at. -/
def located (place : RecordPlace) : List (Record UInt8) → List (RecordPlace × Record UInt8)
  | [] => []
  | r :: rs => (place, r) :: located (place.after r.raw) rs

/-- The cells of a record as text; the first cell that is none is the fault. -/
def cellTexts (place : RecordPlace) (cells : List Bytes) : Except SheetFault Row :=
  cells.zipIdx.mapM fun (cell, i) =>
    match Utf8.decode cell with
    | .ok text => .ok text
    | .error index => .error (.illFormedCell place i index)

/-- A record below the header. Its number of cells is looked at before the cells. -/
def row (flexible : Bool) (width : Nat) (place : RecordPlace) (cells : List Bytes) :
    Except SheetFault Row :=
  if !flexible && cells.length != width then .error (.cellCount place cells.length width)
  else cellTexts place cells

def read (options : SheetOptions) (bytes : Bytes) : Except Problem Sheet :=
  let encoded := Utf8.encode (textOfBytes bytes)
  match located ⟨0, 1, 0⟩ (records options.delimiter encoded) with
  | [] => .error .missingHeader
  | (place, first) :: rest =>
    match cellTexts place first.cells with
    | .error fault => .error (.malformedSheet fault)
    | .ok header =>
      if header.all List.isEmpty then .error .missingHeader
      else
        .ok
          { header := header
            rows := rest.map fun (place, r) =>
              (row options.flexible first.cells.length place r.cells).mapError .malformedSheet }

end Sheet

end Phrasebook

import Mathlib.Data.List.Forall2
import Phrasebook.Proofs.FaultyKeys
import Phrasebook.Proofs.Resolution

/-!
# Only the number of cells can be wrong

A sheet is read byte by byte, whatever bytes it is made of. Its encoding is read leniently, so what
is left to scan is text in UTF-8; an ASCII delimiter, the quote and the breaks are bytes of no other
character, so the scan cuts between characters only. `map_snd_placed_eq` says that the cells found
are those that a reader of characters would find. So no cell fails to be text, and a row is refused
for the number of its cells or not at all: `refused_only_for_cell_count`.
-/

namespace Phrasebook

theorem Utf8.exists_byteOf {byte : UInt8} (ascii : byte.toNat < 128) :
    ∃ c : Char, c.toNat < 128 ∧ byteOf c = byte := by
  have each : ∀ n < 128, (Char.ofNat n).toNat = n := by decide
  have valid := each byte.toNat ascii
  exact ⟨Char.ofNat byte.toNat, by rwa [valid], by rw [byteOf, valid, UInt8.ofNat_toNat]⟩

namespace Sheet

/-- The rows of a text, read character by character. A mark that the text begins with is in none of
their cells. -/
def rowsOf (delimiter : Char) (t : Text) : List Row :=
  (Record.scan (textDialect delimiter) t.dropMark).map (·.cells)

/-- What is left of the bytes of a text behind a mark are the bytes of the text behind it. -/
theorem begun_encode_snd (t : Text) : (begun (Utf8.encode t)).2 = Utf8.encode t.dropMark := by
  cases t with
  | nil => rfl
  | cons c t =>
    by_cases marked : c = byteOrderMark
    · subst marked
      have bytes : Utf8.encode (byteOrderMark :: t) = Encoding.mark .utf8 ++ Utf8.encode t := by
        rw [Encoding.mark, Encoding.encode, Utf8.encode, Utf8.encode, Utf8.encode,
          List.flatMap_cons, List.flatMap_singleton]
      have begins : (Encoding.mark .utf8).isPrefixOf (Encoding.mark .utf8 ++ Utf8.encode t) :=
        List.isPrefixOf_iff_prefix.2 (List.prefix_append _ _)
      rw [bytes, begun, if_pos begins, List.drop_left]
      rfl
    · have unmarked : (c :: t).head? ≠ some byteOrderMark := by
        intro same
        exact marked (Option.some.inj same)
      rw [begun_encode unmarked, Text.dropMark, if_neg marked]

/-- The cells that are found byte by byte are those that are found character by character. -/
theorem map_snd_placed_eq {delimiter : Char} (ascii : delimiter.toNat < 128) (bytes : Bytes) :
    (placed (Utf8.byteOf delimiter) bytes).map (·.2) =
      (rowsOf delimiter (textOfBytes bytes)).map (·.map Utf8.encode) := by
  have cells := Record.cells_scan_encode ascii (textOfBytes bytes).dropMark
  rw [Record.scan, Record.cells_scanFrom] at cells
  rw [map_snd_placed, records_eq, begun_encode_snd, Record.cells_scanFrom, cells, rowsOf,
    List.map_map]
  rfl

theorem row_encode (flexible : Bool) (width : Nat) (place : RecordPlace) (texts : Row) :
    row flexible width place (texts.map Utf8.encode) =
      if !flexible && texts.length != width then .error (.cellCount place texts.length width)
      else .ok texts := by
  rw [row, List.length_map, cellTexts_encode]

/-- What is true of a row that was made of a record, where the header has so many cells. -/
structure MadeOf (flexible : Bool) (width : Nat) (record : RecordPlace × List Bytes)
    (row : Except Problem Row) : Prop where
  /-- It is a row if any number of cells is allowed or the record has that of the header. -/
  accepted : (∃ texts, row = .ok texts) ↔ flexible = true ∨ record.2.length = width
  cells : ∀ texts, row = .ok texts → texts.map Utf8.encode = record.2
  /-- Otherwise it is a problem, which is the number of the cells. -/
  refused : ∀ p, row = .error p →
    p = .malformedSheet (.cellCount record.1 record.2.length width)

theorem madeOf_encode (flexible : Bool) (width : Nat) (place : RecordPlace) (texts : Row) :
    MadeOf flexible width (place, texts.map Utf8.encode)
      ((row flexible width place (texts.map Utf8.encode)).mapError .malformedSheet) := by
  rw [row_encode]
  by_cases fits : flexible = true ∨ texts.length = width
  · have allowed : ¬ (!flexible && texts.length != width) = true := by
      rcases fits with any | same
      · simp [any]
      · simp [same]
    rw [if_neg allowed]
    constructor
    case accepted => exact iff_of_true ⟨texts, rfl⟩ (by rwa [List.length_map])
    case cells =>
      intro read same
      rw [Except.ok.inj same]
    case refused =>
      intro p same
      cases same
  · have forbidden : (!flexible && texts.length != width) = true := by simpa using fits
    rw [if_pos forbidden]
    constructor
    case accepted => exact iff_of_false nofun (by rwa [List.length_map])
    case cells =>
      intro read same
      cases same
    case refused =>
      intro p same
      rw [List.length_map]
      exact (Except.error.inj same).symm

section Read

variable {options : SheetOptions} (ascii : options.delimiter.toNat < 128) {bytes : Bytes}
include ascii

theorem exists_texts (bytes : Bytes) :
    ∃ texts : List Row,
      (placed options.delimiter bytes).map (·.2) = texts.map (·.map Utf8.encode) := by
  obtain ⟨delimiter, small, same⟩ := Utf8.exists_byteOf ascii
  rw [← same]
  exact ⟨_, map_snd_placed_eq small bytes⟩

/-- Each cell of each record is text. -/
theorem text_of_cell {record : RecordPlace × List Bytes}
    (found : record ∈ placed options.delimiter bytes) : ∃ texts : Row,
      record.2 = texts.map Utf8.encode := by
  obtain ⟨texts, cells⟩ := exists_texts ascii bytes
  have mem : record.2 ∈ texts.map (·.map Utf8.encode) := cells ▸ List.mem_map_of_mem found
  obtain ⟨row, -, same⟩ := List.mem_map.1 mem
  exact ⟨row, same.symm⟩

theorem missingHeader_of_read {p : Problem} (h : read options bytes = .error p) :
    p = .missingHeader := by
  rw [read_eq] at h
  unfold ofPlaced at h
  split at h
  · exact (Except.error.inj h).symm
  · rename_i place first rest whole
    have among : (place, first) ∈ placed options.delimiter bytes := whole ▸ List.mem_cons_self
    obtain ⟨texts, rfl⟩ := text_of_cell ascii among
    rw [cellTexts_encode] at h
    dsimp only at h
    split at h
    · exact (Except.error.inj h).symm
    · cases h

/-- The records of a sheet that can be read are its header and one for each of its rows. -/
theorem madeOf_rows {sheet : Sheet} (h : read options bytes = .ok sheet) :
    ∃ place rest,
      placed options.delimiter bytes = (place, sheet.header.map Utf8.encode) :: rest ∧
        List.Forall₂ (MadeOf options.flexible sheet.header.length) rest sheet.rows := by
  rw [read_eq] at h
  obtain ⟨place, first, rest, whole, header, rows⟩ := ofPlaced_eq_ok h
  have among : (place, first) ∈ placed options.delimiter bytes := whole ▸ List.mem_cons_self
  obtain ⟨texts, rfl⟩ := text_of_cell ascii among
  rw [cellTexts_encode] at header
  obtain rfl := Except.ok.inj header
  refine ⟨place, rest, whole, ?_⟩
  rw [rows, List.length_map, List.forall₂_map_right_iff, List.forall₂_same]
  intro record mem
  have among : record ∈ placed options.delimiter bytes := whole ▸ List.mem_cons_of_mem _ mem
  obtain ⟨texts, same⟩ := text_of_cell ascii among
  obtain ⟨there, cells⟩ := record
  obtain rfl : cells = texts.map Utf8.encode := same
  exact madeOf_encode options.flexible sheet.header.length there texts

end Read

end Sheet

theorem Keys.row_of_check_error {strict : Bool} {table : Table} {p : Problem}
    (h : check strict table = .error p) : p.row ≠ none := by
  obtain ⟨i, fault, -⟩ := check_eq_error h
  rw [faultAt?_eq_problemOf] at fault
  rcases problemOf_eq_some fault with ⟨rfl, -⟩ | ⟨rfl, -⟩ | ⟨second, -, -, rfl⟩
  all_goals exact Option.some_ne_none _

namespace Session

/-- A sheet is found malformed only for a row that has another number of cells than the header,
where that is not allowed. -/
theorem cellCount_of_prepare {s : Session} (ascii : s.options.sheet.delimiter.toNat < 128)
    {bytes : Bytes} {fault : SheetFault}
    (h : (s.prepare bytes).2 = .error (.malformedSheet fault)) :
    s.options.sheet.flexible = false ∧ ∃ place found expected,
      fault = .cellCount place found expected ∧ found ≠ expected := by
  obtain unread | ⟨sheet, read, unresolved | unmade | keys⟩ := prepare_eq_error h
  · cases Sheet.missingHeader_of_read ascii unread
  · obtain ⟨before, l, after, -, -, -, same⟩ := platformsColumn_eq_error.1 unresolved
    cases same
  · obtain ⟨place, rest, -, made⟩ := Sheet.madeOf_rows ascii read
    obtain ⟨length, each⟩ := List.forall₂_iff_get.1 made
    obtain ⟨i, there⟩ := List.get_of_mem unmade
    have inside : i.val < rest.length := by
      rw [length]
      exact i.isLt
    have judged := each i inside i.isLt
    rw [there] at judged
    have refused : ¬ ∃ texts : Row,
        (.error (.malformedSheet fault) : Except Problem Row) = .ok texts := by
      rintro ⟨texts, same⟩
      cases same
    rw [judged.accepted, not_or, Bool.not_eq_true] at refused
    exact ⟨refused.1, _, _, _, Problem.malformedSheet.inj (judged.refused _ rfl), refused.2⟩
  · obtain ⟨column, events, table, -, -, wrong⟩ := keys
    exact absurd rfl (Keys.row_of_check_error wrong)

/-- **Only the number of its cells can make a row fail.** Let the delimiter be any ASCII character
and the sheet any bytes at all. Then each cell of each record is text, though the records are found
byte by byte. Nothing but a missing header keeps the sheet from being read. Below the header, whose
cells are those of the first record, each further record is a row with its own cells, if it has as
many of them as the header or any number is allowed, and else a problem, which is that number. So
where any number is allowed no sheet is found malformed. -/
theorem refused_only_for_cell_count {s : Session}
    (ascii : s.options.sheet.delimiter.toNat < 128) (bytes : Bytes) :
    (∀ record ∈ Sheet.placed s.options.sheet.delimiter bytes,
        ∀ cell ∈ record.2, ∃ t, cell = Utf8.encode t) ∧
      (∀ p, Sheet.read s.options.sheet bytes = .error p → p = .missingHeader) ∧
      (∀ sheet, Sheet.read s.options.sheet bytes = .ok sheet →
        ∃ place rest,
          Sheet.placed s.options.sheet.delimiter bytes =
            (place, sheet.header.map Utf8.encode) :: rest ∧
          List.Forall₂ (Sheet.MadeOf s.options.sheet.flexible sheet.header.length)
            rest sheet.rows) ∧
      (s.options.sheet.flexible = true →
        ∀ fault, (s.prepare bytes).2 ≠ .error (.malformedSheet fault)) := by
  refine ⟨?_, ?_, ?_, ?_⟩
  · intro record found cell mem
    obtain ⟨texts, whole⟩ := Sheet.text_of_cell ascii found
    rw [whole] at mem
    obtain ⟨t, -, same⟩ := List.mem_map.1 mem
    exact ⟨t, same.symm⟩
  · intro p unread
    exact Sheet.missingHeader_of_read ascii unread
  · intro sheet read
    exact Sheet.madeOf_rows ascii read
  · intro flexible fault malformed
    have rigid := (cellCount_of_prepare ascii malformed).1
    rw [flexible] at rigid
    cases rigid

/-- Bytes of no encoding: `k;e`, then `a;` with a byte that begins nothing and one that is short of
two more, then `b`. The last record is refused, or it is a row where any number of cells is
allowed. -/
theorem refused_only_for_cell_count_of_ill_formed :
    let bytes : Bytes := [0x6B, 0x3B, 0x65, 0x0A, 0x61, 0x3B, 0xFF, 0xE2, 0x0A, 0x62]
    let rigid : Session :=
      { platform := .web, languages := [⟨['e'], ['o'], none⟩], options := { sheet := ⟨59, false⟩ } }
    let lax : Session := { rigid with options := { sheet := ⟨59, true⟩ } }
    rigid.options.sheet.delimiter.toNat < 128 ∧ lax.options.sheet.flexible = true ∧
      (∃ sheet place rest,
        sheet.rows = [.ok [['a'], ['\uFFFD', '\uFFFD']],
          .error (.malformedSheet (.cellCount ⟨2, 3, 13⟩ 1 2))] ∧
        Sheet.read rigid.options.sheet bytes = .ok sheet ∧
        Sheet.placed rigid.options.sheet.delimiter bytes =
          (place, sheet.header.map Utf8.encode) :: rest ∧
        List.Forall₂ (Sheet.MadeOf false sheet.header.length) rest sheet.rows) ∧
      ∀ fault, (lax.prepare bytes).2 ≠ .error (.malformedSheet fault) := by
  intro bytes rigid lax
  have ascii : rigid.options.sheet.delimiter.toNat < 128 := by decide
  have made : (Sheet.read rigid.options.sheet bytes).toOption.map (·.rows) =
      some [.ok [['a'], ['\uFFFD', '\uFFFD']],
        .error (.malformedSheet (.cellCount ⟨2, 3, 13⟩ 1 2))] := by decide +kernel
  refine ⟨ascii, rfl, ?_, (refused_only_for_cell_count (s := lax) ascii bytes).2.2.2 rfl⟩
  cases read : Sheet.read rigid.options.sheet bytes with
  | error p => simp [read, Except.toOption] at made
  | ok sheet =>
    rw [read] at made
    obtain ⟨place, rest, whole, rows⟩ := (refused_only_for_cell_count ascii bytes).2.2.1 sheet read
    exact ⟨sheet, place, rest, Option.some.inj made, rfl, whole, rows⟩

end Session

end Phrasebook

import Mathlib.Data.Set.List
import Phrasebook.Proofs.Preparing
import Phrasebook.Proofs.Records

/-!
# Quotes that are left open

The end of a sheet closes whatever is open, quotes too. Where they are never closed, what was meant
to be further cells and rows is text of one cell, and nothing is wrong with the record for that: it
is the same record as if the last character were followed by a quote (`placed_of_open`). So it is
refused exactly when that record would be, for its number of cells or for a cell that is no text.
-/

namespace Phrasebook

namespace Sheet

/-- The cells of the record that the end of a file finds within quotes, if it finds one there. -/
def openQuote? (delimiter : UInt8) (bytes : Bytes) : Option (List Bytes) :=
  let (_, last) := Record.run (dialect delimiter) none (begun (Utf8.encode (textOfBytes bytes))).2
  (last.filter (·.state == .quoted)).map (·.cells)

/-- No row can be made of the cells. -/
def Unfit (flexible : Bool) (width : Nat) (cells : List Bytes) : Prop :=
  flexible = false ∧ cells.length ≠ width ∨ ∃ cell ∈ cells, ∀ t, Utf8.decode cell ≠ .ok t

theorem cellTexts_eq_error_iff (place : RecordPlace) (cells : List Bytes) :
    (∃ fault, cellTexts place cells = .error fault) ↔
      ∃ cell ∈ cells, ∀ t, Utf8.decode cell ≠ .ok t := by
  have readable : (∃ texts, cellTexts place cells = .ok texts) ↔
      ∀ cell ∈ cells, ∃ t, Utf8.decode cell = .ok t := by
    have range := Set.ext_iff.1 (Set.range_list_map (Except.ok : Text → Except Nat Text))
      (cells.map Utf8.decode)
    simp only [Set.mem_range, Set.mem_ofPred_eq, List.forall_mem_map] at range
    simp only [cellTexts_eq_ok_iff]
    simpa only [eq_comm] using range
  have either : ¬ (∃ fault, cellTexts place cells = .error fault) ↔
      ∃ texts, cellTexts place cells = .ok texts := by
    cases cellTexts place cells <;> simp
  rw [← not_iff_not, either, readable]
  push Not
  rfl

theorem row_eq_error_iff (flexible : Bool) (width : Nat) (place : RecordPlace)
    (cells : List Bytes) :
    (∃ fault, row flexible width place cells = .error fault) ↔ Unfit flexible width cells := by
  have texts := cellTexts_eq_error_iff place cells
  unfold row Unfit
  cases flexible with
  | true => simpa using texts
  | false =>
    by_cases fits : cells.length = width
    · simpa [fits] using texts
    · simp [fits]

theorem begun_concat_quote (bytes : Bytes) :
    begun (bytes ++ [34]) = ((begun bytes).1, (begun bytes).2 ++ [34]) := by
  have marked : Encoding.mark .utf8 <+: bytes ++ [34] ↔ Encoding.mark .utf8 <+: bytes := by
    rw [List.prefix_concat_iff]
    refine or_iff_right fun same => ?_
    have last := congrArg List.getLast? same
    rw [List.getLast?_concat] at last
    exact absurd last (by decide)
  simp only [begun, List.isPrefixOf_iff_prefix, marked]
  split
  · rename_i within
    rw [List.drop_append_of_le_length within.length_le]
  · rfl

/-- What comes after some records changes nothing about their places. -/
theorem located_append (place : RecordPlace) (rs : List (Record UInt8)) :
    ∃ next, ∀ more, located place (rs ++ more) = located place rs ++ located next more := by
  induction rs generalizing place with
  | nil => exact ⟨place, fun _ => rfl⟩
  | cons r rs ih =>
    obtain ⟨next, later⟩ := ih (place.after r.raw)
    exact ⟨next, fun more => congrArg (_ :: ·) (later more)⟩

/-- The record that is open is the last one, and closing its quotes changes neither its cells nor
the place of any record. -/
theorem placed_of_open {delimiter : UInt8} {bytes : Bytes} {last : List Bytes}
    (left : openQuote? delimiter bytes = some last) :
    ∃ before place, placed delimiter bytes = before ++ [(place, last)] ∧
      ∀ closed, textOfBytes closed = textOfBytes bytes ++ ['"'] →
        placed delimiter closed = placed delimiter bytes := by
  obtain ⟨d, within, rfl⟩ := Option.map_eq_some_iff.1 left
  obtain ⟨final, quoted⟩ := Option.filter_eq_some_iff.1 within
  obtain ⟨finished, behind, -, rest⟩ := Record.scanFrom_append (dialect delimiter)
    (begun (Utf8.encode (textOfBytes bytes))).1.reverse none
    (begun (Utf8.encode (textOfBytes bytes))).2
  rw [final] at rest
  obtain ⟨place, places⟩ := located_append ⟨0, 1, 0⟩ finished
  have whole : records delimiter (Utf8.encode (textOfBytes bytes)) =
      finished ++ [⟨behind.reverse, d.cells⟩] := by
    have plain := rest []
    rw [List.append_nil] at plain
    exact (records_eq _ _).trans plain
  have last : placed delimiter bytes =
      ((located ⟨0, 1, 0⟩ finished).map fun r => (r.1, r.2.cells)) ++ [(place, d.cells)] := by
    rw [placed, whole, places, List.map_append]
    rfl
  refine ⟨_, place, last, fun closed same => ?_⟩
  have quote : Record.step (dialect delimiter) d 34 = .inl (d.enter .quoteSeen) := by
    rw [Record.step, eq_of_beq quoted]
    rfl
  have sealed : records delimiter (Utf8.encode (textOfBytes closed)) =
      finished ++ [⟨(34 :: behind).reverse, d.cells⟩] := by
    have encoded : Utf8.encode (textOfBytes closed) = Utf8.encode (textOfBytes bytes) ++ [34] := by
      rw [same, Utf8.encode, List.flatMap_append]
      rfl
    rw [records_eq, encoded, begun_concat_quote]
    dsimp only
    rw [rest, Record.scanFrom, if_neg (by simp), Option.getD_some, quote]
    rfl
  rw [last, placed, sealed, places, List.map_append]
  rfl

/-- What is last among the rows of a sheet is made of its last record. -/
theorem getLast?_rows {options : SheetOptions} {before : List (RecordPlace × List Bytes)}
    {place : RecordPlace} {last : List Bytes} {sheet : Sheet}
    (read : ofPlaced options (before ++ [(place, last)]) = .ok sheet) (below : sheet.rows ≠ []) :
    sheet.rows.getLast? = some
      ((row options.flexible sheet.header.length place last).mapError Problem.malformedSheet) := by
  obtain ⟨beginning, first, rest, whole, texts, rows⟩ := ofPlaced_eq_ok read
  have width := congrArg List.length (cellTexts_eq_ok_iff.1 texts)
  rw [List.length_map, List.length_map] at width
  obtain ⟨rfl, alone⟩ | ⟨before, rfl, rfl⟩ := List.append_eq_cons_iff.1 whole
  · obtain rfl := (List.cons.inj alone).2
    exact absurd rows below
  · rw [rows, List.map_append, List.map_singleton, List.getLast?_concat, width]

end Sheet

namespace Session

/-- A sheet with a row that could not be read makes no table. -/
theorem prepare_of_unread {s : Session} {bytes : Bytes} {sheet : Sheet} {problem : Problem}
    (read : Sheet.read s.options.sheet bytes = .ok sheet) (unread : .error problem ∈ sheet.rows) :
    ∃ p, (s.prepare bytes).2 = .error p := by
  cases run : s.prepare bytes with
  | mk s' result =>
    cases result with
    | error p => exact ⟨p, rfl⟩
    | ok table =>
      obtain ⟨other, column, events, again, -, made, -⟩ := prepare_eq_ok run
      obtain rfl := Except.ok.inj (again.symm.trans read)
      obtain ⟨cells, rows, -⟩ := Table.ofRows_eq_ok made
      rw [rows, List.mem_map] at unread
      obtain ⟨_, _, same⟩ := unread
      cases same

/-- **A quote that is left open is read as if it were closed at the end of the sheet.** No session
prepares the sheet and the closed one in different ways. The record in which the quote is open is
refused, and with it the sheet, if and only if it is a row with another number of cells than the
header where that is not allowed, or a cell of it is no text. -/
theorem open_quote_refused_iff_unfit {s : Session} {bytes : Bytes} {sheet : Sheet}
    {last : List Bytes} (read : Sheet.read s.options.sheet bytes = .ok sheet)
    (left : Sheet.openQuote? s.options.sheet.delimiter bytes = some last) :
    ((∃ fault, sheet.rows.getLast? = some (.error (.malformedSheet fault))) ↔
        sheet.rows ≠ [] ∧ Sheet.Unfit s.options.sheet.flexible sheet.header.length last) ∧
      ((∃ fault, sheet.rows.getLast? = some (.error (.malformedSheet fault))) →
        ∃ p, (s.prepare bytes).2 = .error p) ∧
      ∀ closed, textOfBytes closed = textOfBytes bytes ++ ['"'] →
        s.prepare closed = s.prepare bytes := by
  obtain ⟨before, place, records, sealed⟩ := Sheet.placed_of_open left
  refine ⟨?_, ?_, fun closed same => ?_⟩
  · have made := read
    rw [Sheet.read_eq, records] at made
    rw [← Sheet.row_eq_error_iff _ _ place]
    constructor
    · rintro ⟨fault, refused⟩
      have below : sheet.rows ≠ [] := by
        intro empty
        rw [empty] at refused
        cases refused
      rw [Sheet.getLast?_rows made below] at refused
      refine ⟨below, ?_⟩
      cases cells : Sheet.row s.options.sheet.flexible sheet.header.length place last with
      | error fault => exact ⟨fault, rfl⟩
      | ok row => simp [cells, Except.mapError] at refused
    · rintro ⟨below, fault, refused⟩
      exact ⟨fault, by rw [Sheet.getLast?_rows made below, refused]; rfl⟩
  · rintro ⟨fault, refused⟩
    exact prepare_of_unread read (List.mem_of_getLast? refused)
  · have alike : Sheet.read s.options.sheet closed = Sheet.read s.options.sheet bytes := by
      rw [Sheet.read_eq, Sheet.read_eq, sealed closed same]
    rw [prepare, prepare, preparation, preparation, alike]

/-- What is swallowed are cells here, so the row has too few. -/
theorem open_quote_refused_iff_unfit_for_count :
    let bytes := Utf8.encode "key,en,fr\nhi,\"Hello,Salut\nbye,Bye,Adieu\n".toList
    let s : Session :=
      { platform := .ios, languages := [{ id := "fr".toList, destination := "fr.strings".toList }] }
    ∃ (sheet : Sheet) (last : List Bytes),
      Sheet.read s.options.sheet bytes = .ok sheet ∧
      Sheet.openQuote? s.options.sheet.delimiter bytes = some last ∧
      last.length = 2 ∧
      (∃ fault, sheet.rows.getLast? = some (.error (.malformedSheet fault))) ∧
      (∃ p, (s.prepare bytes).2 = .error p) ∧
      s.prepare (bytes ++ [34]) = s.prepare bytes := by
  intro bytes s
  have made : (Sheet.read s.options.sheet bytes).toOption.map
      (fun sheet => (sheet.header, sheet.rows)) =
        some (["key".toList, "en".toList, "fr".toList],
          [.error (.malformedSheet (.cellCount ⟨1, 2, 10⟩ 2 3))]) := by decide +kernel
  have left : Sheet.openQuote? s.options.sheet.delimiter bytes =
      some (["hi", "Hello,Salut\nbye,Bye,Adieu\n"].map fun t => Utf8.encode t.toList) := by
    decide +kernel
  have closed : textOfBytes (bytes ++ [34]) = textOfBytes bytes ++ ['"'] := by decide +kernel
  cases read : Sheet.read s.options.sheet bytes with
  | error p => simp [read, Except.toOption] at made
  | ok sheet =>
    rw [read] at made
    obtain ⟨header, rows⟩ := Prod.mk.inj (Option.some.inj made)
    obtain ⟨refused, fails, same⟩ := open_quote_refused_iff_unfit read left
    have unfit : ∃ fault, sheet.rows.getLast? = some (.error (.malformedSheet fault)) := by
      refine refused.2 ⟨by simp [rows], .inl ⟨rfl, ?_⟩⟩
      rw [header]
      decide
    exact ⟨sheet, _, rfl, left, rfl, unfit, fails unfit, same _ closed⟩

/-- What is swallowed is a whole line, so the row has as many cells as the header: nothing is wrong
with it, and its text is the rest of the sheet. -/
theorem open_quote_swallows_a_row :
    let bytes := Utf8.encode "key,en\nhi,\"Hello\nbye,Bye\n".toList
    let languages : List Language := [{ id := "en".toList, destination := "en.strings".toList }]
    ∃ (s : Session) (sheet : Sheet) (last : List Bytes) (s' : Session) (table : Table),
      Session.new .ios languages = .ok s ∧
      Sheet.read s.options.sheet bytes = .ok sheet ∧
      Sheet.openQuote? s.options.sheet.delimiter bytes = some last ∧
      sheet.rows = [.ok ["hi".toList, "Hello\nbye,Bye\n".toList]] ∧
      s.prepare bytes = (s', .ok table) ∧ table.map (·.key) = ["hi".toList] := by
  intro bytes languages
  have new : Session.new .ios languages = .ok { platform := .ios, languages := languages } := rfl
  have made : (Sheet.read {} bytes).toOption.map (·.rows) =
      some [.ok ["hi".toList, "Hello\nbye,Bye\n".toList]] := by decide +kernel
  have left : Sheet.openQuote? 44 bytes =
      some (["hi", "Hello\nbye,Bye\n"].map fun t => Utf8.encode t.toList) := by decide +kernel
  have handed : ∃ table ∈ (prepare { platform := .ios, languages := languages } bytes).2.toOption,
      table.map (·.key) = ["hi".toList] := by decide +kernel
  obtain ⟨s', table, prepared, keys⟩ := exists_prepared handed
  cases read : Sheet.read {} bytes with
  | error p => simp [read, Except.toOption] at made
  | ok sheet =>
    rw [read] at made
    exact ⟨_, sheet, _, s', table, new, read, left, Option.some.inj made, prepared, keys⟩

end Session

end Phrasebook

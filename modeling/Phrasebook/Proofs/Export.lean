import Phrasebook.Proofs.Records

namespace Phrasebook

/-- How a line of an export ends; the last one can do without an end. -/
inductive LineEnd
  | lineFeed
  | both
  | missing
deriving Repr, DecidableEq

namespace LineEnd

def text : LineEnd → Text
  | .lineFeed => ['\n']
  | .both => ['\r', '\n']
  | .missing => []

end LineEnd

structure WrittenCell where
  content : Text
  quoted : Bool
deriving Repr, DecidableEq

namespace WrittenCell

/-- A quote within quotes is written twice. -/
def doubled (c : Char) : Text := if c = '"' then ['"', '"'] else [c]

def text (w : WrittenCell) : Text :=
  if w.quoted then '"' :: w.content.flatMap doubled ++ ['"'] else w.content

theorem text_quoted (content : Text) :
    text ⟨content, true⟩ = '"' :: (content.flatMap doubled ++ ['"']) := rfl

theorem text_plain (content : Text) : text ⟨content, false⟩ = content := rfl

end WrittenCell

structure WrittenLine where
  cells : List WrittenCell
  ending : LineEnd
deriving Repr, DecidableEq

namespace WrittenLine

def row (l : WrittenLine) : Row := l.cells.map (·.content)

def body (delimiter : Char) (l : WrittenLine) : Text :=
  Text.joined [delimiter] (l.cells.map (·.text))

def text (delimiter : Char) (l : WrittenLine) : Text := l.body delimiter ++ l.ending.text

/-- A reader can tell the cells apart, and the line from an empty one: what is written without
quotes has no symbol and no mark in it, and an empty cell that is alone on its line has quotes. -/
structure Legible (delimiter : Char) (l : WrittenLine) : Prop where
  plain : ∀ w ∈ l.cells, w.quoted = false →
    ∀ c ∈ w.content, c ∉ [delimiter, '"', '\r', '\n', '\uFEFF']
  inhabited : l.cells ≠ [] ∧ l.cells ≠ [⟨[], false⟩]

/-- Each character of a cell is looked at, and not each character that there is. -/
instance (delimiter : Char) (l : WrittenLine) : Decidable (l.Legible delimiter) :=
  decidable_of_iff
    ((l.cells.all fun w =>
        w.quoted || w.content.all (· ∉ [delimiter, '"', '\r', '\n', '\uFEFF'])) = true ∧
      l.cells ≠ [] ∧ l.cells ≠ [⟨[], false⟩])
    (by
      constructor
      · rintro ⟨plain, inhabited⟩
        refine ⟨fun w mem bare c within => ?_, inhabited⟩
        have contents := List.all_eq_true.1 plain w mem
        rw [bare, Bool.false_or] at contents
        exact of_decide_eq_true (List.all_eq_true.1 contents c within)
      · rintro ⟨plain, inhabited⟩
        refine ⟨List.all_eq_true.2 fun w mem => ?_, inhabited⟩
        cases bare : w.quoted with
        | true => rfl
        | false =>
          exact List.all_eq_true.2 fun c within => decide_eq_true (plain w mem bare c within))

end WrittenLine

/-- A sheet as a spreadsheet program writes it. -/
structure Export where
  delimiter : Char
  header : WrittenLine
  rows : List WrittenLine
  ascii : delimiter.toNat < 128
  delimits : delimiter ∉ ['"', '\r', '\n']
  named : ∃ w ∈ header.cells, w.content ≠ []
  rectangular : ∀ row ∈ rows, row.cells.length = header.cells.length
  legible : ∀ line ∈ header :: rows, line.Legible delimiter
  ended : ∀ line ∈ (header :: rows).dropLast, line.ending ≠ .missing

namespace Export

def text (e : Export) : Text := (e.header :: e.rows).flatMap (·.text e.delimiter)

end Export

namespace Record

section Cells

variable {delimiter : Char}

/-- What is within quotes is read as it is, but for the second of two quotes. -/
theorem run_doubled (content : Text) (finished : List Text) (cell : Text) :
    run (Sheet.textDialect delimiter) (some ⟨finished, cell, .quoted⟩)
        (content.flatMap WrittenCell.doubled) =
      ([], some ⟨finished, content.reverse ++ cell, .quoted⟩) := by
  induction content generalizing cell with
  | nil => rfl
  | cons c content ih =>
    have one : run (Sheet.textDialect delimiter) (some ⟨finished, cell, .quoted⟩)
        (WrittenCell.doubled c) = ([], some ⟨finished, c :: cell, .quoted⟩) := by
      unfold WrittenCell.doubled
      split
      · rename_i quote
        rw [quote]
        rfl
      · rename_i other
        have kept : step (Sheet.textDialect delimiter) ⟨finished, cell, .quoted⟩ c =
            .inl ⟨finished, c :: cell, .quoted⟩ := congrArg Sum.inl (if_neg other)
        exact run_step kept []
    rw [List.flatMap_cons, run_after one, ih]
    simp

theorem run_cell {w : WrittenCell}
    (plain : w.quoted = false → ∀ c ∈ w.content, ¬ (Sheet.textDialect delimiter).Marks c)
    (finished : List Text) :
    ∃ state, state ≠ .quoted ∧
      run (Sheet.textDialect delimiter) (some ⟨finished, [], .start⟩) w.text =
        ([], some ⟨finished, w.content.reverse, state⟩) := by
  obtain ⟨content, quoted⟩ := w
  cases quoted with
  | true =>
    have opening : step (Sheet.textDialect delimiter) ⟨finished, [], .start⟩ '"' =
        .inl ⟨finished, [], .quoted⟩ := rfl
    refine ⟨.quoteSeen, by decide, ?_⟩
    rw [WrittenCell.text_quoted, run_step opening, run_after (run_doubled content finished []),
      List.append_nil]
    rfl
  | false =>
    rw [WrittenCell.text_plain]
    by_cases empty : content = []
    · exact ⟨.start, by decide, by rw [empty]; rfl⟩
    · refine ⟨.plain, by decide, ?_⟩
      rw [run_of_not_marks (plain rfl) empty, List.append_nil]
      rfl

/-- The delimiter ends a cell, and the last cell of a line is left open. -/
theorem run_cells (apart : delimiter ≠ '"') {cells : List WrittenCell} (inhabited : cells ≠ [])
    (plain : ∀ w ∈ cells, w.quoted = false →
      ∀ c ∈ w.content, ¬ (Sheet.textDialect delimiter).Marks c) (finished : List Text) :
    ∃ d : Draft Char, d.state ≠ .quoted ∧ d.cells = finished.reverse ++ cells.map (·.content) ∧
      run (Sheet.textDialect delimiter) (some ⟨finished, [], .start⟩)
        (Text.joined [delimiter] (cells.map (·.text))) = ([], some d) := by
  induction cells generalizing finished with
  | nil => exact absurd rfl inhabited
  | cons w cells ih =>
    obtain ⟨first, rest⟩ := List.forall_mem_cons.1 plain
    obtain ⟨state, closed, read⟩ := run_cell first finished
    cases cells with
    | nil =>
      refine ⟨⟨finished, w.content.reverse, state⟩, closed, by simp [Draft.cells], ?_⟩
      rwa [List.map_singleton, Text.joined, List.intercalate_singleton]
    | cons v cells =>
      obtain ⟨d, last, contents, more⟩ := ih (by simp) rest (w.content :: finished)
      have next :
          step (Sheet.textDialect delimiter) ⟨finished, w.content.reverse, state⟩ delimiter =
            .inl ⟨w.content :: finished, [], .start⟩ := by
        refine (step_delimiter closed apart).trans ?_
        rw [Draft.nextCell, List.reverse_reverse]
      refine ⟨d, last, by simp [contents], ?_⟩
      rw [List.map_cons, List.map_cons, Text.joined, List.intercalate_cons_cons, List.append_assoc,
        run_after read, List.singleton_append, run_step next]
      exact more

end Cells

section Lines

variable {delimiter : Char} (delimits : delimiter ∉ ['"', '\r', '\n'])
include delimits

/-- A line begins with a cell, so that it is neither skipped nor taken for a mark. -/
theorem body_begins (ascii : delimiter.toNat < 128) {l : WrittenLine}
    (legible : l.Legible delimiter) :
    ∃ c rest, l.body delimiter = c :: rest ∧ c ∉ ['\r', '\n', '\uFEFF'] := by
  obtain ⟨w, cells, whole⟩ := List.exists_cons_of_ne_nil legible.inhabited.1
  have body : ∃ rest, l.body delimiter = w.text ++ rest ∧
      (cells ≠ [] → ∃ more, rest = delimiter :: more) := by
    rw [WrittenLine.body, whole, List.map_cons, Text.joined]
    cases cells with
    | nil => exact ⟨[], by simp, fun more => absurd rfl more⟩
    | cons v cells =>
      rw [List.map_cons, List.intercalate_cons_cons, List.append_assoc]
      exact ⟨_, rfl, fun _ => ⟨_, rfl⟩⟩
  obtain ⟨rest, body, further⟩ := body
  obtain ⟨content, quoted⟩ := w
  cases quoted with
  | true => exact ⟨'"', _, body, by decide⟩
  | false =>
    cases content with
    | cons c content =>
      have bare := legible.plain ⟨c :: content, false⟩ (by simp [whole]) rfl c List.mem_cons_self
      simp only [List.mem_cons, not_or] at bare
      exact ⟨c, _, body, by simp [bare]⟩
    | nil =>
      obtain ⟨more, rfl⟩ := further fun alone => legible.inhabited.2 (by rw [whole, alone])
      refine ⟨delimiter, more, body, ?_⟩
      simp only [List.mem_cons, List.not_mem_nil, or_false, not_or] at delimits ⊢
      refine ⟨delimits.2.1, delimits.2.2, ?_⟩
      rintro rfl
      exact absurd ascii (by decide)

theorem run_body (ascii : delimiter.toNat < 128) {l : WrittenLine} (legible : l.Legible delimiter) :
    ∃ d : Draft Char, d.state ≠ .quoted ∧ d.cells = l.row ∧
      run (Sheet.textDialect delimiter) none (l.body delimiter) = ([], some d) := by
  simp only [List.mem_cons, List.not_mem_nil, or_false, not_or] at delimits
  have plain : ∀ w ∈ l.cells, w.quoted = false →
      ∀ c ∈ w.content, ¬ (Sheet.textDialect delimiter).Marks c := by
    intro w mem bare c inside marks
    refine legible.plain w mem bare c inside ?_
    rcases marks with rfl | rfl | rfl | rfl <;> simp [Sheet.textDialect]
  obtain ⟨d, closed, cells, read⟩ := run_cells delimits.1 legible.inhabited.1 plain []
  refine ⟨d, closed, cells, ?_⟩
  obtain ⟨c, rest, begins, ordinary⟩ := body_begins (by simpa using delimits) ascii legible
  have unbroken : isBreak (Sheet.textDialect delimiter) c = false := by
    simp only [List.mem_cons, not_or] at ordinary
    simp [isBreak, Sheet.textDialect, ordinary]
  rw [begins, run_begin unbroken, ← begins]
  exact read

/-- A line that ends is a record. -/
theorem run_line (ascii : delimiter.toNat < 128) {l : WrittenLine} (legible : l.Legible delimiter)
    (ended : l.ending ≠ .missing) :
    run (Sheet.textDialect delimiter) none (l.text delimiter) = ([l.row], none) := by
  obtain ⟨d, closed, cells, read⟩ := run_body delimits ascii legible
  simp only [List.mem_cons, List.not_mem_nil, or_false, not_or] at delimits
  rw [WrittenLine.text, run_after read, ← cells]
  cases ending : l.ending with
  | missing => exact absurd ending ended
  | lineFeed =>
    have ends : step (Sheet.textDialect delimiter) d '\n' = .inr d.cells :=
      step_break closed rfl (show '\n' ≠ '"' by decide) (Ne.symm delimits.2.2)
    exact run_end ends []
  | both =>
    have ends : step (Sheet.textDialect delimiter) d '\r' = .inr d.cells :=
      step_break closed rfl (show '\r' ≠ '"' by decide) (Ne.symm delimits.2.1)
    exact run_end ends ['\n']

/-- The records of an export are its lines. -/
theorem lines_read (ascii : delimiter.toNat < 128) {lines : List WrittenLine}
    (legible : ∀ l ∈ lines, l.Legible delimiter)
    (ended : ∀ l ∈ lines.dropLast, l.ending ≠ .missing) :
    (scan (Sheet.textDialect delimiter) (lines.flatMap (·.text delimiter))).map (·.cells) =
      lines.map (·.row) := by
  rw [scan, cells_scanFrom]
  induction lines with
  | nil => rfl
  | cons l lines ih =>
    obtain ⟨first, rest⟩ := List.forall_mem_cons.1 legible
    cases lines with
    | nil =>
      rw [List.flatMap_singleton]
      by_cases missing : l.ending = .missing
      · obtain ⟨d, -, cells, read⟩ := run_body delimits ascii first
        have text : l.text delimiter = l.body delimiter := by
          rw [WrittenLine.text, missing]
          exact List.append_nil _
        rw [text, read]
        exact congrArg ([·]) cells
      · rw [run_line delimits ascii first missing]
        rfl
    | cons next lines =>
      obtain ⟨closed, later⟩ := List.forall_mem_cons.1 ended
      rw [List.flatMap_cons, run_append, run_line delimits ascii first closed]
      exact congrArg (l.row :: ·) (ih rest later)

end Lines

end Record

namespace Export

theorem head?_text (e : Export) : e.text.head? ≠ some byteOrderMark := by
  obtain ⟨c, rest, begins, ordinary⟩ := Record.body_begins e.delimits e.ascii
    (e.legible e.header List.mem_cons_self)
  have head : e.text.head? = some c := by
    rw [text, List.flatMap_cons, WrittenLine.text, begins]
    rfl
  rw [head]
  rintro same
  cases same
  exact absurd ordinary (by decide)

end Export

/-- **A spreadsheet export is read as the sheet it was written from.** Whatever text is in the
cells, whichever of them are in quotes and however the lines end, the header and each row below it
have the cells that were written. -/
theorem exports_read_back (e : Export) (flexible : Bool) :
    Sheet.read { delimiter := Utf8.byteOf e.delimiter, flexible := flexible }
        (Utf8.encode e.text) =
      .ok { header := e.header.row, rows := e.rows.map fun line => .ok line.row } := by
  have text : textOfBytes (Utf8.encode e.text) = e.text :=
    textOfBytes_of_detect e.head?_text (Encoding.detect_unmarked e.head?_text)
  have cells : (Sheet.placed (Utf8.byteOf e.delimiter) (Utf8.encode e.text)).map (·.2) =
      (e.header.row :: e.rows.map (·.row)).map (·.map Utf8.encode) := by
    rw [Sheet.map_snd_placed, text, Sheet.records_eq, Sheet.begun_encode e.head?_text]
    refine (Record.cells_scan_encode e.ascii e.text).trans ?_
    have lines := Record.lines_read e.delimits e.ascii e.legible e.ended
    have encoded := congrArg (List.map (List.map Utf8.encode)) lines
    rwa [List.map_map] at encoded
  have named : ¬ e.header.row.all List.isEmpty = true := by
    obtain ⟨w, mem, filled⟩ := e.named
    intro blank
    have empty := List.all_eq_true.1 blank w.content (List.mem_map_of_mem mem)
    exact filled (List.isEmpty_iff.1 empty)
  have rectangular : ∀ row ∈ e.rows.map (·.row), row.length = e.header.row.length := by
    intro row mem
    obtain ⟨line, within, rfl⟩ := List.mem_map.1 mem
    simpa [WrittenLine.row] using e.rectangular line within
  rw [Sheet.read_eq, Sheet.ofPlaced_encode cells named rectangular, List.map_map]
  rfl

/-- Cells of every kind: in quotes a delimiter, quotes, a line end and a mark, and without them a
character of four bytes and an empty cell. The last line has no end. -/
def Export.mixed : Export where
  delimiter := ';'
  header := ⟨[⟨"key".toList, false⟩, ⟨"en".toList, true⟩, ⟨"".toList, false⟩], .both⟩
  rows :=
    [⟨[⟨"a".toList, false⟩, ⟨"x;\"y\"\r\nz".toList, true⟩, ⟨"😀".toList, false⟩], .lineFeed⟩,
      ⟨[⟨"".toList, false⟩, ⟨"".toList, true⟩, ⟨"\uFEFF".toList, true⟩], .missing⟩]
  ascii := by decide
  delimits := by decide
  named := by decide
  rectangular := by decide
  legible := by decide
  ended := by decide

theorem exports_read_back_of_mixed :
    Sheet.read { delimiter := 59 }
        (Utf8.encode
          "key;\"en\";\r\na;\"x;\"\"y\"\"\r\nz\";😀\n;\"\";\"\uFEFF\"".toList) =
      .ok
        { header := ["key".toList, "en".toList, []]
          rows := [.ok ["a".toList, "x;\"y\"\r\nz".toList, "😀".toList],
            .ok [[], [], "\uFEFF".toList]] } := by
  have written : Export.mixed.text =
      "key;\"en\";\r\na;\"x;\"\"y\"\"\r\nz\";😀\n;\"\";\"\uFEFF\"".toList := by decide
  rw [← written]
  exact exports_read_back Export.mixed false

end Phrasebook

import Phrasebook.Proofs.Encodings

/-!
# Scanning part by part

A run is the scan of a part of an input: the cells of the records that end in it, and the record
that is open at its end. Two parts in a row are scanned as one (`run_append`), and where the whole
input ends, what is open is closed (`cells_scanFrom`). A text can be scanned by its bytes in UTF-8,
for none of the bytes of any other character is that of an ASCII symbol (`run_encode`). Of the
records that are found a sheet takes their places and their cells (`Sheet.read_eq`).
-/

namespace Phrasebook

def Dialect.Marks {α : Type} (δ : Dialect α) (a : α) : Prop :=
  a = δ.quote ∨ a = δ.delimiter ∨ a = δ.carriageReturn ∨ a = δ.lineFeed

def Sheet.textDialect (delimiter : Char) : Dialect Char :=
  { quote := '"', delimiter := delimiter, carriageReturn := '\r', lineFeed := '\n' }

namespace Record

/-- The state after a symbol without a meaning. -/
def CellState.within : CellState → CellState
  | .quoted => .quoted
  | _ => .plain

section Run

variable {α : Type} [DecidableEq α] (δ : Dialect α)

/-- One symbol read: the cells of the record that it ends, if it ends one, and the open record. -/
def advance (draft : Option (Draft α)) (a : α) : List (List (List α)) × Option (Draft α) :=
  if draft.isNone && isBreak δ a then ([], none)
  else
    match step δ (draft.getD .empty) a with
    | .inl d => ([], some d)
    | .inr cells => ([cells], none)

/-- Several symbols read: the cells of the records that end, and the open record. -/
def run : Option (Draft α) → List α → List (List (List α)) × Option (Draft α)
  | draft, [] => ([], draft)
  | draft, a :: as =>
    let (first, middle) := advance δ draft a
    let (rest, last) := run middle as
    (first ++ rest, last)

theorem run_cons (draft : Option (Draft α)) (a : α) (as : List α) :
    run δ draft (a :: as) =
      ((advance δ draft a).1 ++ (run δ (advance δ draft a).2 as).1,
        (run δ (advance δ draft a).2 as).2) := rfl

theorem run_append (draft : Option (Draft α)) (x y : List α) :
    run δ draft (x ++ y) =
      ((run δ draft x).1 ++ (run δ (run δ draft x).2 y).1, (run δ (run δ draft x).2 y).2) := by
  induction x generalizing draft with
  | nil => rfl
  | cons a x ih =>
    rw [List.cons_append, run_cons, run_cons, ih]
    simp only [List.append_assoc]

/-- What ends no record only changes where the rest is read from. -/
theorem run_after {δ : Dialect α} {draft middle : Option (Draft α)} {x : List α}
    (h : run δ draft x = ([], middle)) (y : List α) : run δ draft (x ++ y) = run δ middle y := by
  rw [run_append, h]
  rfl

/-- What a scan does with one symbol is to advance: the record that ends, if one does, is found, and
the rest is read with the draft that is left. -/
theorem scanFrom_cons (read : List α) (draft : Option (Draft α)) (a : α) :
    ∃ (found : List (Record α)) (behind : List α),
      found.map (·.cells) = (advance δ draft a).1 ∧
      ∀ y, scanFrom δ read draft (a :: y) = found ++ scanFrom δ behind (advance δ draft a).2 y := by
  by_cases skipped : (draft.isNone && isBreak δ a) = true
  · have one : advance δ draft a = ([], none) := if_pos skipped
    refine ⟨[], a :: read, by rw [one]; rfl, fun y => ?_⟩
    rw [one, scanFrom, if_pos skipped]
    rfl
  · cases stepped : step δ (draft.getD .empty) a with
    | inl d =>
      have one : advance δ draft a = ([], some d) := by
        rw [advance, if_neg skipped, stepped]
      refine ⟨[], a :: read, by rw [one]; rfl, fun y => ?_⟩
      rw [one, scanFrom, if_neg skipped, stepped]
      rfl
    | inr ended =>
      have one : advance δ draft a = ([ended], none) := by
        rw [advance, if_neg skipped, stepped]
      refine ⟨[⟨(a :: read).reverse, ended⟩], [], by rw [one]; rfl, fun y => ?_⟩
      rw [one, scanFrom, if_neg skipped, stepped]
      rfl

/-- A scan goes on after the records that end in a part of the input, whatever comes next. -/
theorem scanFrom_append (read : List α) (draft : Option (Draft α)) (x : List α) :
    ∃ (finished : List (Record α)) (behind : List α),
      finished.map (·.cells) = (run δ draft x).1 ∧
      ∀ y, scanFrom δ read draft (x ++ y) = finished ++ scanFrom δ behind (run δ draft x).2 y := by
  induction x generalizing read draft with
  | nil => exact ⟨[], read, rfl, fun _ => rfl⟩
  | cons a x ih =>
    obtain ⟨found, between, first, one⟩ := scanFrom_cons δ read draft a
    obtain ⟨finished, behind, later, rest⟩ := ih between (advance δ draft a).2
    refine ⟨found ++ finished, behind, ?_, fun y => ?_⟩
    · rw [List.map_append, first, later, run_cons]
    · rw [List.cons_append, one, rest, run_cons, List.append_assoc]

/-- The cells of all records: the end of the input closes the open one. -/
theorem cells_scanFrom (read : List α) (draft : Option (Draft α)) (x : List α) :
    (scanFrom δ read draft x).map (·.cells) =
      (run δ draft x).1 ++ (run δ draft x).2.toList.map (·.cells) := by
  obtain ⟨finished, behind, cells, rest⟩ := scanFrom_append δ read draft x
  have whole := rest []
  rw [List.append_nil] at whole
  rw [whole, List.map_append, cells, scanFrom, List.map_map]
  rfl

variable {δ}

/-- Before a record, a symbol that ends no line begins one. -/
theorem run_begin {a : α} (h : isBreak δ a = false) (as : List α) :
    run δ none (a :: as) = run δ (some .empty) (a :: as) := by
  have one : advance δ none a = advance δ (some .empty) a := by
    simp only [advance, h, Bool.and_false, Bool.false_eq_true, if_false]
    rfl
  rw [run_cons, run_cons, one]

/-- Within a record a symbol is read as the step says. -/
theorem run_step {d next : Draft α} {a : α} (h : step δ d a = .inl next) (as : List α) :
    run δ (some d) (a :: as) = run δ (some next) as := by
  have one : advance δ (some d) a = ([], some next) := by
    rw [advance, if_neg (by simp), Option.getD_some, h]
  rw [run_cons, one]
  rfl

theorem run_end {d : Draft α} {a : α} {cells : List (List α)} (h : step δ d a = .inr cells)
    (as : List α) :
    run δ (some d) (a :: as) = (cells :: (run δ none as).1, (run δ none as).2) := by
  have one : advance δ (some d) a = ([cells], none) := by
    rw [advance, if_neg (by simp), Option.getD_some, h]
  rw [run_cons, one]
  rfl

theorem isBreak_of_not_marks {a : α} (h : ¬ δ.Marks a) : isBreak δ a = false := by
  simp only [Dialect.Marks, not_or] at h
  simp [isBreak, h.2.2.1, h.2.2.2]

theorem step_of_not_marks {a : α} (h : ¬ δ.Marks a) (d : Draft α) :
    step δ d a = .inl (d.push d.state.within a) := by
  have unbroken := isBreak_of_not_marks h
  simp only [Dialect.Marks, not_or] at h
  have close (other : Draft α) : closeOr δ d a other = .inl other := by
    rw [closeOr, if_neg h.2.1, unbroken]
    rfl
  unfold step
  cases d.state <;> simp [h.1, close, CellState.within]

theorem step_delimiter {d : Draft α} (closed : d.state ≠ .quoted) (apart : δ.delimiter ≠ δ.quote) :
    step δ d δ.delimiter = .inl d.nextCell := by
  have close (other : Draft α) : closeOr δ d δ.delimiter other = .inl d.nextCell := if_pos rfl
  unfold step
  cases state : d.state with
  | quoted => exact absurd state closed
  | plain => exact close _
  | start | quoteSeen => exact (if_neg apart).trans (close _)

theorem step_break {d : Draft α} {a : α} (closed : d.state ≠ .quoted) (ends : isBreak δ a = true)
    (unquoting : a ≠ δ.quote) (undelimiting : a ≠ δ.delimiter) : step δ d a = .inr d.cells := by
  have close (other : Draft α) : closeOr δ d a other = .inr d.cells := by
    rw [closeOr, if_neg undelimiting, if_pos ends]
  unfold step
  cases state : d.state with
  | quoted => exact absurd state closed
  | plain => exact close _
  | start | quoteSeen => exact (if_neg unquoting).trans (close _)

/-- Symbols without a meaning go into the open cell. -/
theorem run_of_not_marks {x : List α} (h : ∀ a ∈ x, ¬ δ.Marks a) (some_of : x ≠ []) (d : Draft α) :
    run δ (some d) x = ([], some ⟨d.finished, x.reverse ++ d.cell, d.state.within⟩) := by
  induction x generalizing d with
  | nil => exact absurd rfl some_of
  | cons a x ih =>
    obtain ⟨first, rest⟩ := List.forall_mem_cons.1 h
    rw [run_step (step_of_not_marks first d)]
    cases x with
    | nil => rfl
    | cons b x =>
      have steady : d.state.within.within = d.state.within := by cases d.state <;> rfl
      rw [ih rest (by simp)]
      simp [Draft.push, steady]

end Run

def Draft.encode (d : Draft Char) : Draft UInt8 :=
  ⟨d.finished.map Utf8.encode, (Utf8.encode d.cell.reverse).reverse, d.state⟩

theorem Draft.encode_nextCell (d : Draft Char) : d.nextCell.encode = d.encode.nextCell := by
  simp [encode, nextCell, Utf8.encode]

theorem Draft.cells_encode (d : Draft Char) : d.encode.cells = d.cells.map Utf8.encode := by
  simp [encode, cells]

theorem Draft.encode_push (d : Draft Char) (state : CellState) (c : Char) :
    (d.push state c).encode =
      ⟨d.encode.finished, (String.utf8EncodeChar c).reverse ++ d.encode.cell, state⟩ := by
  simp [encode, push, Utf8.encode]

theorem isBreak_encode (delimiter : Char) {c : Char} (plain : c.toNat < 128) :
    isBreak (Sheet.dialect (Utf8.byteOf delimiter)) (Utf8.byteOf c) =
      isBreak (Sheet.textDialect delimiter) c := by
  rw [Bool.eq_iff_iff]
  simp only [isBreak, Bool.or_eq_true, beq_iff_eq]
  exact or_congr (Utf8.byteOf_inj plain (d := '\r') (by decide))
    (Utf8.byteOf_inj plain (d := '\n') (by decide))

section

variable {delimiter : Char} (ascii : delimiter.toNat < 128)
include ascii

theorem closeOr_encode {c : Char} (plain : c.toNat < 128) (d other : Draft Char) :
    closeOr (Sheet.dialect (Utf8.byteOf delimiter)) d.encode (Utf8.byteOf c) other.encode =
      (closeOr (Sheet.textDialect delimiter) d c other).map Draft.encode
        (List.map Utf8.encode) := by
  have delimits : Utf8.byteOf c = (Sheet.dialect (Utf8.byteOf delimiter)).delimiter ↔
      c = (Sheet.textDialect delimiter).delimiter := Utf8.byteOf_inj plain ascii
  unfold closeOr
  rw [isBreak_encode delimiter plain]
  by_cases here : c = (Sheet.textDialect delimiter).delimiter
  · rw [if_pos here, if_pos (delimits.2 here), ← Draft.encode_nextCell]
    rfl
  · rw [if_neg here, if_neg (mt delimits.1 here)]
    split
    · rw [Draft.cells_encode]
      rfl
    · rfl

theorem step_encode {c : Char} (plain : c.toNat < 128) (d : Draft Char) :
    step (Sheet.dialect (Utf8.byteOf delimiter)) d.encode (Utf8.byteOf c) =
      (step (Sheet.textDialect delimiter) d c).map Draft.encode (List.map Utf8.encode) := by
  have quotes : Utf8.byteOf c = (Sheet.dialect (Utf8.byteOf delimiter)).quote ↔
      c = (Sheet.textDialect delimiter).quote := Utf8.byteOf_inj plain (d := '"') (by decide)
  have push (state : CellState) :
      d.encode.push state (Utf8.byteOf c) = (d.push state c).encode := by
    rw [Draft.encode_push, Utf8.encodeChar_of_ascii plain]
    rfl
  have state : d.encode.state = d.state := rfl
  unfold step
  rw [state]
  cases d.state with
  | start | quoteSeen =>
    simp only [push, quotes, closeOr_encode ascii plain]
    split <;> rfl
  | plain =>
    dsimp only
    rw [push]
    exact closeOr_encode ascii plain d _
  | quoted =>
    simp only [push, quotes]
    split <;> rfl

/-- Beyond ASCII no character has a meaning, and neither has one of its bytes. -/
theorem not_marks_beyond {c : Char} (beyond : ¬ c.toNat < 128) :
    ¬ (Sheet.textDialect delimiter).Marks c ∧
      ∀ byte ∈ String.utf8EncodeChar c, ¬ (Sheet.dialect (Utf8.byteOf delimiter)).Marks byte := by
  constructor
  · rintro (rfl | rfl | rfl | rfl)
    · exact beyond (show '"'.toNat < 128 by decide)
    · exact beyond ascii
    · exact beyond (show '\r'.toNat < 128 by decide)
    · exact beyond (show '\n'.toNat < 128 by decide)
  · intro byte mem marks
    have high := Utf8.le_of_mem_encodeChar beyond mem
    have low : byte.toNat < 128 := by
      rcases marks with rfl | rfl | rfl | rfl
      · exact show (34 : UInt8).toNat < 128 by decide
      · exact (toNat_ofNat_of_lt_256 (show delimiter.toNat < 256 by omega)).symm ▸ ascii
      · exact show (13 : UInt8).toNat < 128 by decide
      · exact show (10 : UInt8).toNat < 128 by decide
    omega

theorem run_char (draft : Option (Draft Char)) (c : Char) :
    run (Sheet.dialect (Utf8.byteOf delimiter)) (draft.map Draft.encode) (String.utf8EncodeChar c) =
      ((advance (Sheet.textDialect delimiter) draft c).1.map (List.map Utf8.encode),
        (advance (Sheet.textDialect delimiter) draft c).2.map Draft.encode) := by
  have begun : (draft.map Draft.encode).getD .empty = (draft.getD .empty).encode := by
    cases draft <;> rfl
  by_cases plain : c.toNat < 128
  · have ends := isBreak_encode delimiter plain
    rw [Utf8.encodeChar_of_ascii plain, run_cons, run, List.append_nil]
    show advance _ _ (Utf8.byteOf c) = _
    unfold advance
    rw [Option.isNone_map, ends, begun, step_encode ascii plain]
    split
    · rfl
    · cases step (Sheet.textDialect delimiter) (draft.getD .empty) c <;> rfl
  · obtain ⟨unmarked, bytes⟩ := not_marks_beyond ascii plain
    have one : advance (Sheet.textDialect delimiter) draft c =
        ([], some ((draft.getD .empty).push (draft.getD .empty).state.within c)) := by
      rw [advance, isBreak_of_not_marks unmarked, Bool.and_false, if_neg Bool.false_ne_true,
        step_of_not_marks unmarked]
    have within : run (Sheet.dialect (Utf8.byteOf delimiter)) (draft.map Draft.encode)
        (String.utf8EncodeChar c) =
        run (Sheet.dialect (Utf8.byteOf delimiter)) (some (draft.getD .empty).encode)
          (String.utf8EncodeChar c) := by
      cases draft with
      | some d => rfl
      | none =>
        have inhabited : String.utf8EncodeChar c ≠ [] := String.utf8EncodeChar_ne_nil
        obtain ⟨byte, rest, whole⟩ := List.exists_cons_of_ne_nil inhabited
        rw [whole]
        exact run_begin (isBreak_of_not_marks (bytes byte (by simp [whole]))) rest
    rw [one, within, run_of_not_marks bytes String.utf8EncodeChar_ne_nil, Option.map_some,
      Draft.encode_push]
    rfl

theorem run_encode (draft : Option (Draft Char)) (t : Text) :
    run (Sheet.dialect (Utf8.byteOf delimiter)) (draft.map Draft.encode) (Utf8.encode t) =
      ((run (Sheet.textDialect delimiter) draft t).1.map (List.map Utf8.encode),
        (run (Sheet.textDialect delimiter) draft t).2.map Draft.encode) := by
  induction t generalizing draft with
  | nil => rfl
  | cons c t ih =>
    have first := run_char ascii draft c
    rw [Utf8.encode, List.flatMap_cons, run_append, first]
    dsimp only
    have rest := ih (advance (Sheet.textDialect delimiter) draft c).2
    rw [Utf8.encode] at rest
    rw [rest, run_cons, List.map_append]

/-- The cells of a text are the same, scanned by characters or by bytes. -/
theorem cells_scan_encode (t : Text) :
    (scan (Sheet.dialect (Utf8.byteOf delimiter)) (Utf8.encode t)).map (·.cells) =
      (scan (Sheet.textDialect delimiter) t).map (·.cells.map Utf8.encode) := by
  have bytes := run_encode ascii none t
  have chars := congrArg (List.map (List.map Utf8.encode))
    (cells_scanFrom (Sheet.textDialect delimiter) [] none t)
  rw [List.map_map] at chars
  refine Eq.trans ?_ chars.symm
  rw [scan, cells_scanFrom, ← Option.map_none (f := Draft.encode), bytes, List.map_append]
  congr 1
  cases (run (Sheet.textDialect delimiter) none t).2 with
  | none => rfl
  | some d => exact congrArg ([·]) d.cells_encode

end

end Record

namespace Sheet

/-- The mark at the beginning of a sheet, if there is one, and the bytes after it. -/
def begun (bytes : Bytes) : Bytes × Bytes :=
  let mark := Encoding.mark .utf8
  if mark.isPrefixOf bytes then (mark, bytes.drop mark.length) else ([], bytes)

theorem records_eq (delimiter : UInt8) (bytes : Bytes) :
    records delimiter bytes =
      Record.scanFrom (dialect delimiter) (begun bytes).1.reverse none (begun bytes).2 := by
  unfold records begun
  dsimp only
  split <;> rfl

theorem begun_encode {t : Text} (unmarked : t.head? ≠ some byteOrderMark) :
    begun (Utf8.encode t) = ([], Utf8.encode t) := by
  refine if_neg fun marked => unmarked ?_
  exact Encoding.head?_of_marked (List.isPrefixOf_iff_prefix.1 marked)

/-- The records of a file, each as its place and its cells. -/
def placed (delimiter : UInt8) (bytes : Bytes) : List (RecordPlace × List Bytes) :=
  (located ⟨0, 1, 0⟩ (records delimiter (Utf8.encode (textOfBytes bytes)))).map
    fun located => (located.1, located.2.cells)

def ofPlaced (options : SheetOptions) : List (RecordPlace × List Bytes) → Except Problem Sheet
  | [] => .error .missingHeader
  | (place, first) :: rest =>
    match cellTexts place first with
    | .error fault => .error (.malformedSheet fault)
    | .ok header =>
      if header.all List.isEmpty then .error .missingHeader
      else
        .ok
          { header := header
            rows := rest.map fun r =>
              (row options.flexible first.length r.1 r.2).mapError .malformedSheet }

/-- Of its records a sheet takes nothing but their places and their cells. -/
theorem read_eq (options : SheetOptions) (bytes : Bytes) :
    read options bytes = ofPlaced options (placed options.delimiter bytes) := by
  unfold read placed
  dsimp only
  cases located ⟨0, 1, 0⟩ (records options.delimiter (Utf8.encode (textOfBytes bytes))) with
  | nil => rfl
  | cons first rest =>
    obtain ⟨place, first⟩ := first
    rw [List.map_cons]
    dsimp only [ofPlaced]
    cases cellTexts place first.cells with
    | error fault => rfl
    | ok header =>
      dsimp only
      rw [List.map_map]
      rfl

theorem map_snd_located (place : RecordPlace) (rs : List (Record UInt8)) :
    (located place rs).map (·.2) = rs := by
  induction rs generalizing place with
  | nil => rfl
  | cons r rs ih => exact congrArg (r :: ·) (ih _)

theorem map_snd_placed (delimiter : UInt8) (bytes : Bytes) :
    (placed delimiter bytes).map (·.2) =
      (records delimiter (Utf8.encode (textOfBytes bytes))).map (·.cells) := by
  rw [placed, List.map_map]
  conv_rhs => rw [← map_snd_located ⟨0, 1, 0⟩ (records delimiter _), List.map_map]
  rfl

theorem cellTexts_eq_ok_iff {place : RecordPlace} {cells : List Bytes} {texts : Row} :
    cellTexts place cells = .ok texts ↔ cells.map Utf8.decode = texts.map .ok := by
  unfold cellTexts
  generalize 0 = index
  induction cells generalizing index texts with
  | nil =>
    rw [List.map_nil, List.nil_eq, List.map_eq_nil_iff]
    exact ⟨fun h => (Except.ok.inj h).symm, fun h => congrArg Except.ok h.symm⟩
  | cons cell cells ih =>
    rw [List.zipIdx_cons, List.mapM_cons, List.map_cons]
    cases decoded : Utf8.decode cell with
    | error i =>
      refine iff_of_false (fun h => ?_) fun h => ?_
      · simp [decoded, bind, Except.bind] at h
      · cases texts <;> cases h
    | ok text =>
      have more {rest : Row} := @ih rest (index + 1)
      simp only [decoded, bind, Except.bind, pure, Except.pure]
      split
      · rename_i fault failed
        rw [failed] at more
        refine iff_of_false nofun fun same => ?_
        cases texts with
        | nil => cases same
        | cons first rest => exact nomatch more.2 (List.cons.inj same).2
      · rename_i rest read
        rw [read] at more
        have whole : Except.ok text :: cells.map Utf8.decode = (text :: rest).map .ok :=
          congrArg (_ :: ·) (more.1 rfl)
        rw [whole, List.map_inj_right fun _ _ => Except.ok.inj]
        exact ⟨Except.ok.inj, congrArg Except.ok⟩

theorem cellTexts_encode (place : RecordPlace) (row : Row) :
    cellTexts place (row.map Utf8.encode) = .ok row := by
  rw [cellTexts_eq_ok_iff, List.map_map]
  exact List.map_congr_left fun text _ => Utf8.decode_encode text

/-- A sheet is made of records only if the first of them is a header. -/
theorem ofPlaced_eq_ok {options : SheetOptions} {rs : List (RecordPlace × List Bytes)}
    {sheet : Sheet} (h : ofPlaced options rs = .ok sheet) :
    ∃ place first rest, rs = (place, first) :: rest ∧ cellTexts place first = .ok sheet.header ∧
      sheet.rows = rest.map fun r =>
        (row options.flexible first.length r.1 r.2).mapError .malformedSheet := by
  unfold ofPlaced at h
  split at h
  · cases h
  · rename_i place first rest
    split at h
    · cases h
    · rename_i header texts
      split at h
      · cases h
      · obtain rfl := Except.ok.inj h
        exact ⟨place, first, rest, rfl, texts, rfl⟩

/-- Records whose cells are text make a sheet, if they are as long as the header and that has a
cell which is not empty. -/
theorem ofPlaced_encode {options : SheetOptions} {header : Row} {rows : List Row}
    {rs : List (RecordPlace × List Bytes)}
    (cells : rs.map (·.2) = (header :: rows).map (·.map Utf8.encode))
    (named : ¬ header.all List.isEmpty = true)
    (rectangular : ∀ row ∈ rows, row.length = header.length) :
    ofPlaced options rs = .ok { header := header, rows := rows.map .ok } := by
  obtain ⟨⟨place, first⟩, rs, rfl, rfl, rest⟩ := List.map_eq_cons_iff.1 cells
  have below : (rs.map fun r => (row options.flexible (header.map Utf8.encode).length r.1
      r.2).mapError Problem.malformedSheet) = rows.map .ok := by
    clear named cells
    induction rows generalizing rs with
    | nil =>
      obtain rfl := List.map_eq_nil_iff.1 rest
      rfl
    | cons texts rows ih =>
      obtain ⟨⟨place, written⟩, rs, rfl, rfl, others⟩ := List.map_eq_cons_iff.1 rest
      obtain ⟨fits, later⟩ := List.forall_mem_cons.1 rectangular
      have read : row options.flexible (header.map Utf8.encode).length place
          (texts.map Utf8.encode) = .ok texts := by
        rw [row, List.length_map, List.length_map, fits, bne_self_eq_false, Bool.and_false,
          if_neg Bool.false_ne_true, cellTexts_encode]
      rw [List.map_cons, List.map_cons, ih later rs others]
      exact congrArg (·.mapError Problem.malformedSheet :: rows.map Except.ok) read
  dsimp only [ofPlaced]
  rw [cellTexts_encode]
  dsimp only
  rw [if_neg named, below]

end Sheet

end Phrasebook

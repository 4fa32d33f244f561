import Phrasebook.Proofs.KeyPairs
import Phrasebook.Proofs.PreparedTable
import Phrasebook.Proofs.Records
import Phrasebook.Proofs.RowByRow
import Phrasebook.Proofs.Tabulation

namespace Phrasebook

/-! ## The check of keys, seen from the table -/

namespace Keys

theorem problemOf_eq_some {strict : Bool} {p : Phrase} {next : Option Nat} {problem : Problem}
    (h : problemOf strict p next = some problem) :
    (problem = .keyContainsBlank p.row p.key ∧ p.key.any isBlank = true) ∨
    (problem = .illegalKey p.row p.key ∧ strict = true ∧ p.key.all isKeyChar = false) ∨
    ∃ second, next = some second ∧ exempt p = false ∧
      problem = .duplicateKey p.row second p.key := by
  unfold problemOf at h
  split at h
  · rename_i blank
    exact .inl ⟨(Option.some.inj h).symm, blank⟩
  · split at h
    · cases h
    · rename_i counts
      split at h
      · rename_i illegal
        rw [Bool.and_eq_true, Bool.not_eq_true'] at illegal
        exact .inr (.inl ⟨(Option.some.inj h).symm, illegal⟩)
      · obtain ⟨second, found, same⟩ := Option.map_eq_some_iff.1 h
        exact .inr (.inr ⟨second, found, Bool.eq_false_iff.2 counts, same.symm⟩)

theorem isKeyChar_of_header {key : Text} (header : isHeaderKey key = true) {c : Char}
    (mem : c ∈ key) : isKeyChar c = true := by
  have small : c.toLower ∈ "header".toList := by
    have same : Text.lower key = "header".toList := eq_of_beq header
    exact same ▸ List.mem_map_of_mem mem
  have letters : "header".toList.all isKeyChar = true := by decide
  have legal := List.all_eq_true.1 letters _ small
  rcases Text.toLower_cases c with ⟨upper, -⟩ | ⟨-, same⟩
  · have letter : c.isAlpha = true := (congrArg (· || c.isLower) upper).trans (Bool.true_or _)
    have alphanumeric : c.isAlphanum = true :=
      (congrArg (· || c.isDigit) letter).trans (Bool.true_or _)
    rw [isKeyChar, alphanumeric, Bool.true_or]
  · rwa [same] at legal

theorem legal_of_exempt {p : Phrase} (h : exempt p = true) : p.key.all isKeyChar = true := by
  rw [exempt, Bool.or_eq_true, List.isEmpty_iff] at h
  rcases h with empty | header
  · rw [empty]
    rfl
  · exact List.all_eq_true.2 fun c mem => isKeyChar_of_header header mem

end Keys

/-! ## The rows that are kept -/

namespace Walk

/-- The key of the row at an index, if there is such a row and it is kept. -/
def keyAt? (w : Walk) (rows : List Row) (i : Nat) : Option Text :=
  (rows[i]?.filter fun row => !w.rejects row && !w.blank row).map Table.keyOf

/-- The table of the rows. -/
def table (w : Walk) (rows : List Row) : Table :=
  (Table.fatesFrom w.tableOptions w.languages 0 rows).filterMap (Table.phraseOf? ·.2)

variable {w : Walk} {rows : List Row}

theorem keyAt?_eq_some {i : Nat} {key : Text} :
    w.keyAt? rows i = some key ↔
      ∃ row, rows[i]? = some row ∧ w.rejects row = false ∧ w.blank row = false ∧
        Table.keyOf row = key := by
  simp only [keyAt?, Option.map_eq_some_iff, Option.filter_eq_some_iff, Bool.and_eq_true,
    Bool.not_eq_true', and_assoc]

theorem phraseOf?_fate_eq_some (distinct : (w.languages.map (·.id)).Nodup) {number : Nat}
    {row : Row} {p : Phrase} :
    Table.phraseOf? (Table.fate w.tableOptions w.languages number row) = some p ↔
      w.rejects row = false ∧ w.blank row = false ∧
        p = Table.phraseOf w.languages number row := by
  rw [fate_eq distinct]
  cases w.rejects row
  · cases w.blank row
    · simp [Table.phraseOf?, eq_comm]
    · simp [Table.phraseOf?]
  · simp [Table.phraseOf?]

theorem mem_table (distinct : (w.languages.map (·.id)).Nodup) {p : Phrase} :
    p ∈ w.table rows ↔ ∃ i row, rows[i]? = some row ∧ w.rejects row = false ∧
      w.blank row = false ∧ p = Table.phraseOf w.languages (rowNumber i) row := by
  simp only [table, Table.fatesFrom, List.filterMap_map, List.mem_filterMap, Function.comp_apply,
    phraseOf?_fate_eq_some distinct, Prod.exists, List.mk_mem_zipIdx_iff_getElem?]
  exact exists_comm

theorem row_of_place (distinct : (w.languages.map (·.id)).Nodup) (i : Fin (w.table rows).length) :
    ∃ n, (w.table rows)[i].row = n + 2 ∧ w.keyAt? rows n = some (w.table rows)[i].key := by
  obtain ⟨n, row, place, accepted, spoken, made⟩ :=
    (mem_table distinct).1 (List.getElem_mem i.isLt)
  rw [Fin.getElem_fin, made]
  exact ⟨n, Table.phraseOf_row .., keyAt?_eq_some.2
    ⟨row, place, accepted, spoken, (Table.phraseOf_key ..).symm⟩⟩

theorem place_of_row (distinct : (w.languages.map (·.id)).Nodup) {n : Nat} {key : Text}
    (h : w.keyAt? rows n = some key) :
    ∃ i : Fin (w.table rows).length,
      (w.table rows)[i].row = n + 2 ∧ (w.table rows)[i].key = key := by
  obtain ⟨row, place, accepted, spoken, rfl⟩ := keyAt?_eq_some.1 h
  obtain ⟨i, bound, made⟩ := List.getElem_of_mem
    ((mem_table distinct).2 ⟨n, row, place, accepted, spoken, rfl⟩)
  refine ⟨⟨i, bound⟩, ?_⟩
  rw [Fin.getElem_fin, made]
  exact ⟨Table.phraseOf_row .., Table.phraseOf_key ..⟩

theorem row_table_lt {i j : Fin (w.table rows).length} :
    (w.table rows)[i].row < (w.table rows)[j].row ↔ i < j := by
  have ascending (k m : Fin (w.table rows).length) (h : k < m) :
      (w.table rows)[k].row < (w.table rows)[m].row :=
    List.pairwise_iff_getElem.1 (Table.ascending_kept ..) k m k.isLt m.isLt h
  refine ⟨fun less => ?_, ascending i j⟩
  rcases lt_trichotomy i j with before | same | behind
  · exact before
  · exact absurd (same ▸ less) (Nat.lt_irrefl _)
  · exact absurd (ascending j i behind) (Nat.lt_asymm less)

theorem place_lt {i j : Fin (w.table rows).length} {n m : Nat}
    (first : (w.table rows)[i].row = n + 2) (second : (w.table rows)[j].row = m + 2) :
    i < j ↔ n < m := by
  rw [← row_table_lt, first, second]
  exact Nat.add_lt_add_iff_right

/-! ## What a problem says of the rows -/

/-- Nothing is wrong with the key of a row among the rows that are kept. -/
structure Sound (w : Walk) (strict : Bool) (rows : List Row) (i : Nat) : Prop where
  unblank : ∀ key ∈ w.keyAt? rows i, ∀ c ∈ key, isBlank c = false
  legal : strict = true → ∀ key ∈ w.keyAt? rows i, ∀ c ∈ key, Keys.isKeyChar c = true
  alone : ∀ key ∈ w.keyAt? rows i, key ≠ [] → isHeaderKey key = false →
    ∀ j, i < j → w.keyAt? rows j ≠ some key

/-- What is true of the rows if a problem of their keys is the one to report. The row at index `i`
has the number `i + 2`. -/
def Explains (w : Walk) (strict : Bool) (rows : List Row) : Problem → Prop
  | .keyContainsBlank row key =>
    ∃ i, row = i + 2 ∧ w.keyAt? rows i = some key ∧ (∃ c ∈ key, isBlank c = true) ∧
      ∀ h < i, w.Sound strict rows h
  | .illegalKey row key =>
    ∃ i, row = i + 2 ∧ w.keyAt? rows i = some key ∧
      (strict = true ∧ ∃ c ∈ key, Keys.isKeyChar c = false) ∧ ∀ h < i, w.Sound strict rows h
  | .duplicateKey first second key =>
    first < second ∧ ∃ i j, first = i + 2 ∧ second = j + 2 ∧
      w.keyAt? rows i = some key ∧ w.keyAt? rows j = some key ∧
      key ≠ [] ∧ isHeaderKey key = false ∧
      (∀ h < j, h ≠ i → w.keyAt? rows h ≠ some key) ∧ ∀ h < i, w.Sound strict rows h
  | _ => False

/-- A row before the first place with a fault is sound. -/
theorem sound_of_earlier (distinct : (w.languages.map (·.id)).Nodup) {strict : Bool}
    {i : Fin (w.table rows).length}
    (earlier : ∀ k < i, Keys.faultAt? strict (w.table rows) k = none) {n : Nat}
    (place : (w.table rows)[i].row = n + 2) : ∀ h < n, w.Sound strict rows h := by
  intro h before
  have fine : ∀ key ∈ w.keyAt? rows h, ∃ k : Fin (w.table rows).length,
      (w.table rows)[k].row = h + 2 ∧ (w.table rows)[k].key = key ∧
        (w.table rows)[k].key.any isBlank = false ∧
        (Keys.exempt (w.table rows)[k] = true ∨
          (strict = true → (w.table rows)[k].key.all Keys.isKeyChar = true) ∧
            ∀ j, k < j → (w.table rows)[j].key ≠ (w.table rows)[k].key) := by
    intro key kept
    obtain ⟨k, number, same⟩ := place_of_row distinct kept
    have silent := earlier k ((place_lt number place).2 before)
    rw [Keys.faultAt?_eq_problemOf, Keys.problemOf_eq_none, Option.map_eq_none_iff,
      Keys.nextWith?_eq_none] at silent
    exact ⟨k, number, same, silent⟩
  constructor
  case unblank =>
    intro key kept c mem
    obtain ⟨k, -, rfl, unblank, -⟩ := fine key kept
    simpa using List.any_eq_false.1 unblank c mem
  case legal =>
    intro on key kept c mem
    obtain ⟨k, -, rfl, -, exempt | ⟨legal, -⟩⟩ := fine key kept
    · exact List.all_eq_true.1 (Keys.legal_of_exempt exempt) c mem
    · exact List.all_eq_true.1 (legal on) c mem
  case alone =>
    intro key kept filled phrase m behind again
    obtain ⟨j, later, same⟩ := place_of_row distinct again
    obtain ⟨k, number, rfl, -, exempt | ⟨-, last⟩⟩ := fine key kept
    · rw [Keys.exempt, Phrase.isHeader, phrase, Bool.or_false, List.isEmpty_iff] at exempt
      exact filled exempt
    · exact last j ((place_lt number later).2 behind) same

/-- What the check of keys finds in the table of the rows is true of the rows. -/
theorem explains_of_check (distinct : (w.languages.map (·.id)).Nodup) {strict : Bool}
    {problem : Problem} (h : Keys.check strict (w.table rows) = .error problem) :
    w.Explains strict rows problem := by
  obtain ⟨i, fault, earlier⟩ := Keys.check_eq_error h
  obtain ⟨n, place, kept⟩ := row_of_place distinct i
  have sound := sound_of_earlier distinct earlier place
  rw [Keys.faultAt?_eq_problemOf] at fault
  rcases Keys.problemOf_eq_some fault with ⟨rfl, blank⟩ | ⟨rfl, on, illegal⟩ |
    ⟨second, next, counts, rfl⟩
  · exact ⟨n, place, kept, List.any_eq_true.1 blank, sound⟩
  · refine ⟨n, place, kept, ⟨on, ?_⟩, sound⟩
    simpa using illegal
  · obtain ⟨j, found, rfl⟩ := Option.map_eq_some_iff.1 next
    obtain ⟨behind, same, between⟩ := Keys.nextWith?_eq_some found
    obtain ⟨m, later, again⟩ := row_of_place distinct j
    obtain ⟨filled, phrase⟩ : (w.table rows)[i].key ≠ [] ∧
        isHeaderKey (w.table rows)[i].key = false := by
      simpa [Keys.exempt, Phrase.isHeader] using counts
    refine ⟨row_table_lt.2 behind, n, m, place, later, kept, same ▸ again, filled, phrase, ?_,
      sound⟩
    -- An earlier row with the key would not be sound, and one in between would be the second.
    intro h before other held
    rcases Nat.lt_or_gt_of_ne other with early | late
    · exact (sound h early).alone _ held filled phrase n early kept
    · obtain ⟨k, number, key⟩ := place_of_row distinct held
      exact between k ((place_lt place number).2 late) ((place_lt number later).2 before) key

end Walk

/-! ## Problems that point at a row -/

theorem Sheet.row_of_read_error {options : SheetOptions} {bytes : Bytes} {p : Problem}
    (h : read options bytes = .error p) : p.row = none := by
  rw [read_eq] at h
  unfold ofPlaced at h
  split at h
  · cases h
    rfl
  · split at h
    · cases h
      rfl
    · split at h
      · cases h
        rfl
      · cases h

theorem Sheet.row_of_unread {options : SheetOptions} {bytes : Bytes} {sheet : Sheet}
    (h : read options bytes = .ok sheet) {p : Problem} (mem : .error p ∈ sheet.rows) :
    p.row = none := by
  rw [read_eq] at h
  obtain ⟨-, first, rest, -, -, rows⟩ := ofPlaced_eq_ok h
  rw [rows] at mem
  obtain ⟨r, -, same⟩ := List.mem_map.1 mem
  cases made : row options.flexible first.length r.1 r.2 with
  | error fault =>
    rw [made] at same
    cases same
    rfl
  | ok cells =>
    rw [made] at same
    cases same

theorem row_of_platformsColumn_error {header : Row} {languages : List Language} {p : Problem}
    (h : platformsColumn header languages = .error p) : p.row = none := by
  unfold platformsColumn at h
  split at h
  · cases h
    rfl
  · cases h

namespace Session

/-- A preparation that fails with a problem which points at a row has failed in its last step. -/
theorem check_of_prepare_error {s s' : Session} {bytes : Bytes} {problem : Problem} {number : Nat}
    (h : s.prepare bytes = (s', .error problem)) (points : problem.row = some number) :
    ∃ (sheet : Sheet) (column : Option Nat) (events : List Event) (table : Table),
      Sheet.read s.options.sheet bytes = .ok sheet ∧
      platformsColumn sheet.header (s.languages.map (·.bind sheet.header)) = .ok column ∧
      Table.ofRows (s.tableOptions column) (s.languages.map (·.bind sheet.header)) sheet.rows =
        (events, .ok table) ∧
      Keys.check s.options.strictKeys table = .error problem := by
  have pointed : problem.row ≠ none := by
    rw [points]
    exact Option.some_ne_none number
  obtain unread | ⟨sheet, read, unresolved | unmade | keys⟩ :=
    prepare_eq_error (congrArg Prod.snd h)
  · exact absurd (Sheet.row_of_read_error unread) pointed
  · exact absurd (row_of_platformsColumn_error unresolved) pointed
  · exact absurd (Sheet.row_of_unread read unmade) pointed
  · obtain ⟨column, events, table, found, made, fault⟩ := keys
    exact ⟨sheet, column, events, table, read, found, made, fault⟩

theorem explains_of_prepare {s s' : Session} (distinct : (s.languages.map (·.id)).Nodup)
    {bytes : Bytes} {problem : Problem} {number : Nat}
    (h : s.prepare bytes = (s', .error problem)) (points : problem.row = some number) :
    ∃ (sheet : Sheet) (rows : List Row) (column : Option Nat),
      Sheet.read s.options.sheet bytes = .ok sheet ∧ sheet.rows = rows.map .ok ∧
      platformsColumn sheet.header (s.languages.map (·.bind sheet.header)) = .ok column ∧
      (Walk.over s.platform s.options column (s.languages.map (·.bind sheet.header))).Explains
        s.options.strictKeys rows problem := by
  obtain ⟨sheet, column, events, table, read, found, tabled, keys⟩ :=
    check_of_prepare_error h points
  obtain ⟨rows, cells, rfl, -⟩ := Table.ofRows_eq_ok tabled
  refine ⟨sheet, rows, column, read, cells, found, Walk.explains_of_check ?_ keys⟩
  simpa [Walk.over, Function.comp_def, Language.bind] using distinct

theorem platform_after (s : Session) (calls : List Call) : (s.after calls).platform = s.platform :=
  congrArg Prod.fst (s.declared_after calls)

/-- Whatever a session was used for, a header binds its languages as it binds those declared. -/
theorem bound_after (s : Session) (calls : List Call) (header : Row) :
    (s.after calls).languages.map (·.bind header) = s.languages.map (·.bind header) := by
  have same := congrArg (List.map (Language.bind header) ·.2) (s.declared_after calls)
  simp only [declared, List.map_map] at same
  exact same

end Session

/-- **Problems of keys point at the rows they are about**, whatever the session was used for
before: all rows have been read, and among those that are kept the named ones have the fault. -/
theorem key_problems_point_at_rows {platform : Platform} {languages : List Language}
    {fresh s : Session} {calls : List Session.Call} {bytes : Bytes} {problem : Problem}
    {number : Nat} (made : Session.new platform languages = .ok fresh)
    (refused : (fresh.after calls).prepare bytes = (s, .error problem))
    (points : problem.row = some number) :
    ∃ (sheet : Sheet) (rows : List Row) (column : Option Nat),
      Sheet.read (fresh.after calls).options.sheet bytes = .ok sheet ∧
      sheet.rows = rows.map .ok ∧
      platformsColumn sheet.header (languages.map (·.bind sheet.header)) = .ok column ∧
      (Walk.over platform (fresh.after calls).options column
        (languages.map (·.bind sheet.header))).Explains
          (fresh.after calls).options.strictKeys rows problem := by
  obtain ⟨rfl, distinct⟩ := Session.new_eq_ok made
  have ids := Session.ids_after { platform := platform, languages := languages } calls
  obtain ⟨sheet, rows, column, read, cells, found, explained⟩ :=
    Session.explains_of_prepare (by rwa [ids]) refused points
  rw [Session.bound_after] at found explained
  rw [Session.platform_after] at explained
  exact ⟨sheet, rows, column, read, cells, found, explained⟩

theorem eq_error_of_map {ε α β : Type} {result : Except ε α} {e : ε} {f : α → β}
    (h : result.map f = .error e) : result = .error e := by
  cases result with
  | ok a => cases h
  | error e' => exact congrArg Except.error (Except.error.inj h)

/-- A key that repeats, on rows between which and before which others with the key are left out, in
a session that has refused another sheet and checks strictly. -/
theorem key_problems_point_at_rows_past_others :
    let languages : List Language :=
      [{ id := "en".toList, destination := "en.xml".toList },
        { id := "fr".toList, destination := "fr.xml".toList }]
    let calls : List Session.Call :=
      [.prepare (Utf8.encode "key,fr,en\na b,Salut,Hi\n".toList), .configure { strictKeys := true }]
    let bytes := Utf8.encode <| String.toList
      "key,en,fr,platforms\nHeader,Top,,\nk,,,\nk,No,,ios\n k ,Hi,Salut,\nk,No,,web\nx,X,,\nk,,Oui,\n"
    let problem := Problem.duplicateKey 5 8 "k".toList
    ∃ (fresh s : Session),
      Session.new .android languages = .ok fresh ∧
      (fresh.after calls).prepare bytes = (s, .error problem) ∧ problem.row = some 5 ∧
      ∃ (sheet : Sheet) (rows : List Row) (column : Option Nat),
        Sheet.read {} bytes = .ok sheet ∧ sheet.rows = rows.map .ok ∧
        platformsColumn sheet.header (languages.map (·.bind sheet.header)) = .ok column ∧
        (Walk.over .android { strictKeys := true } column
          (languages.map (·.bind sheet.header))).Explains true rows problem := by
  intro languages calls bytes problem
  let fresh : Session := { platform := .android, languages := languages }
  have made : Session.new .android languages = .ok fresh := rfl
  have refused : ((fresh.after calls).prepare bytes).2 = .error problem := by
    refine eq_error_of_map (f := fun _ => ()) ?_
    decide +kernel
  have options : (fresh.after calls).options = { strictKeys := true } := by decide +kernel
  have prepared : (fresh.after calls).prepare bytes =
      (((fresh.after calls).prepare bytes).1, .error problem) := by rw [← refused]
  have explained := key_problems_point_at_rows made prepared rfl
  rw [options] at explained
  exact ⟨fresh, _, made, prepared, rfl, explained⟩

end Phrasebook

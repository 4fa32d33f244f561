import Phrasebook.Proofs.KeyOrder
import Phrasebook.Proofs.Preparing

namespace Phrasebook

namespace Table

theorem readable_append (first : List Row) (rows : List (Except Problem Row)) :
    readable (first.map .ok ++ rows) = first ++ readable rows := by
  induction first with
  | nil => rfl
  | cons row first ih => exact congrArg (row :: ·) ih

theorem fault?_append (first : List Row) (rows : List (Except Problem Row)) :
    fault? (first.map .ok ++ rows) = fault? rows := by
  induction first with
  | nil => rfl
  | cons row first ih => exact ih

theorem readable_map_ok (rows : List Row) : readable (rows.map .ok) = rows := by
  simpa [readable] using readable_append rows []

theorem fault?_map_ok (rows : List Row) : fault? (rows.map .ok) = none := by
  simpa [fault?] using fault?_append rows []

theorem fatesFrom_congr {options other : TableOptions} (filter : options.filter = other.filter)
    (languages : List Language) (index : Nat) (rows : List Row) :
    fatesFrom options languages index rows = fatesFrom other languages index rows := by
  simp only [fatesFrom, fate, filter]

theorem ofRows_snd_congr {options other : TableOptions} (filter : options.filter = other.filter)
    (languages : List Language) (rows : List (Except Problem Row)) :
    (ofRows options languages rows).2 = (ofRows other languages rows).2 := by
  rw [ofRows_eq, ofRows_eq, fatesFrom_congr filter]
  cases fault? rows <;> rfl

theorem ofRows_map_ok (options : TableOptions) (languages : List Language) (rows : List Row) :
    ofRows options languages (rows.map .ok) =
      let fates := fatesFrom options languages 0 rows
      let table := fates.filterMap (phraseOf? ·.2)
      ((fates.flatMap fun f => eventsOf options f.1 f.2)
        ++ referenceEvents options.reference languages table, .ok table) := by
  rw [ofRows_eq, fault?_map_ok, readable_map_ok]

/-- No table is made for want of a row that could be read, and for nothing else. -/
theorem mem_of_ofRows_error {options : TableOptions} {languages : List Language}
    {rows : List (Except Problem Row)} {events : List Event} {p : Problem}
    (h : ofRows options languages rows = (events, .error p)) : .error p ∈ rows := by
  rw [ofRows_eq] at h
  cases fault : fault? rows with
  | none => simp [fault] at h
  | some q =>
    simp only [fault, Prod.mk.injEq, Except.error.injEq] at h
    obtain ⟨-, rfl⟩ := h
    exact mem_of_fault? fault

end Table

namespace Session

/-- The table of a sheet with what is recorded on the way, unless a language has no column. -/
def tabulate (s : Session) (sheet : Sheet) : Except Problem (List Event × Except Problem Table) := do
  let languages := s.languages.map (·.bind sheet.header)
  let column ← platformsColumn sheet.header languages
  return Table.ofRows (s.tableOptions column) languages sheet.rows

/-- A preparation is the making of a table between the reading of the sheet and the check of the
keys. -/
theorem preparation_eq (s : Session) (bytes : Bytes) :
    s.preparation bytes =
      match Sheet.read s.options.sheet bytes with
      | .error p => ⟨s.languages, [], .error p⟩
      | .ok sheet =>
        let languages := s.languages.map (·.bind sheet.header)
        match s.tabulate sheet with
        | .error p => ⟨languages, [], .error p⟩
        | .ok (events, .error p) => ⟨languages, events, .error p⟩
        | .ok (events, .ok table) =>
          ⟨languages, events ++ [.builtTable table.length],
            (Keys.check s.options.strictKeys table).map fun _ => table⟩ := by
  unfold preparation tabulate
  cases Sheet.read s.options.sheet bytes with
  | error p => rfl
  | ok sheet =>
    dsimp only [bind, Except.bind, pure, Except.pure]
    cases platformsColumn sheet.header (s.languages.map (·.bind sheet.header)) with
    | error p => rfl
    | ok column =>
      dsimp only
      generalize Table.ofRows (s.tableOptions column) (s.languages.map (·.bind sheet.header))
        sheet.rows = made
      rcases made with ⟨events, p | table⟩ <;> rfl

/-- What a preparation comes to is what the first of its steps that fails comes to. -/
theorem prepare_snd (s : Session) (bytes : Bytes) :
    (s.prepare bytes).2 = do
      let sheet ← Sheet.read s.options.sheet bytes
      let made ← s.tabulate sheet
      let table ← made.2
      Keys.check s.options.strictKeys table
      return table := by
  rw [prepare, preparation_eq]
  cases Sheet.read s.options.sheet bytes with
  | error p => rfl
  | ok sheet =>
    dsimp only [bind, Except.bind]
    rcases s.tabulate sheet with p | ⟨events, p | table⟩
    · rfl
    · rfl
    · dsimp only
      cases Keys.check s.options.strictKeys table <;> rfl

/-- A preparation that fails has failed in one of its steps: there is no sheet, a language has no
column, a row could not be read, or a key is at fault. -/
theorem prepare_eq_error {s : Session} {bytes : Bytes} {p : Problem}
    (h : (s.prepare bytes).2 = .error p) :
    Sheet.read s.options.sheet bytes = .error p ∨
      ∃ sheet, Sheet.read s.options.sheet bytes = .ok sheet ∧
        (platformsColumn sheet.header (s.languages.map (·.bind sheet.header)) = .error p ∨
          .error p ∈ sheet.rows ∨
          ∃ column events table,
            platformsColumn sheet.header (s.languages.map (·.bind sheet.header)) = .ok column ∧
            Table.ofRows (s.tableOptions column) (s.languages.map (·.bind sheet.header))
              sheet.rows = (events, .ok table) ∧
            Keys.check s.options.strictKeys table = .error p) := by
  rw [prepare_snd] at h
  cases read : Sheet.read s.options.sheet bytes with
  | error q =>
    rw [read] at h
    exact .inl (congrArg Except.error (Except.error.inj h))
  | ok sheet =>
    refine .inr ⟨sheet, rfl, ?_⟩
    simp only [read, tabulate, bind, Except.bind, pure, Except.pure] at h
    cases found : platformsColumn sheet.header (s.languages.map (·.bind sheet.header)) with
    | error q =>
      rw [found] at h
      exact .inl (congrArg Except.error (Except.error.inj h))
    | ok column =>
      refine .inr ?_
      simp only [found] at h
      cases made : Table.ofRows (s.tableOptions column)
          (s.languages.map (·.bind sheet.header)) sheet.rows with
      | mk events tabled =>
        rw [made] at h
        cases tabled with
        | error q =>
          obtain rfl := Except.error.inj h
          exact .inl (Table.mem_of_ofRows_error made)
        | ok table =>
          refine .inr ⟨column, events, table, rfl, made, ?_⟩
          dsimp only at h
          cases keys : Keys.check s.options.strictKeys table with
          | error q =>
            rw [keys] at h
            exact congrArg Except.error (Except.error.inj h)
          | ok =>
            rw [keys] at h
            cases h

theorem prepare_snd_of_table {s : Session} {bytes : Bytes} {sheet : Sheet} {column : Option Nat}
    {table : Table} (read : Sheet.read s.options.sheet bytes = .ok sheet)
    (found : platformsColumn sheet.header (s.languages.map (·.bind sheet.header)) = .ok column)
    (made : (Table.ofRows (s.tableOptions column) (s.languages.map (·.bind sheet.header))
      sheet.rows).2 = .ok table)
    (keys : Keys.InOrder s.options.strictKeys table) : (s.prepare bytes).2 = .ok table := by
  rw [prepare_snd, read]
  dsimp only [bind, Except.bind, tabulate]
  rw [found]
  dsimp only [pure, Except.pure]
  rw [made]
  dsimp only
  rw [Keys.check_eq_ok_iff.2 keys]

end Session

end Phrasebook

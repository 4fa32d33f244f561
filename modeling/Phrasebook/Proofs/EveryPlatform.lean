import Phrasebook.Proofs.Tabulation

/-!
# One check for every platform

A sheet can be checked before it is known which platform it is for: the platforms column is then
passed over and every row is kept. `checked_for_every_platform` says that such a check speaks for
all platforms. For each of them the same sheet gives a table, and it is the checked one without the
rows that are meant for others: rows are numbered before any is left out, and the keys of a part of
a table are in order if those of the whole are.
-/

namespace Phrasebook

def Sheet.source? (sheet : Sheet) (p : Phrase) : Option Row :=
  sheet.rows[p.row - rowNumber 0]?.bind Except.toOption

/-- The phrases of a table whose rows a platforms column, if there is one, lets pass. -/
def Sheet.phrasesFor (sheet : Sheet) (column : Option Nat) (platform : Platform) (table : Table) :
    Table :=
  match column with
  | none => table
  | some c => table.filter fun p => (sheet.source? p).any (PlatformFilter.accepts ⟨c, platform⟩)

theorem Sheet.phrasesFor_sublist (sheet : Sheet) (column : Option Nat) (platform : Platform)
    (table : Table) : (sheet.phrasesFor column platform table).Sublist table := by
  cases column with
  | none => exact .refl table
  | some c => exact List.filter_sublist

namespace Table

variable {options other : TableOptions} {languages : List Language}

theorem phraseOf?_fate_filtered {f : PlatformFilter} (unfiltered : options.filter = none)
    (filtered : other.filter = some f) (number : Nat) (row : Row) :
    phraseOf? (fate other languages number row) =
      (phraseOf? (fate options languages number row)).filter fun _ => f.accepts row := by
  unfold fate
  rw [unfiltered, filtered]
  cases accepted : f.accepts row with
  | true =>
    simp only [Option.any_some, Option.any_none, accepted, Bool.not_true, Bool.false_eq_true,
      if_false]
    split <;> rfl
  | false => simp [accepted, phraseOf?]

/-- A filter takes phrases out of the table, and changes none of the others. -/
theorem kept_filtered {column : Option Nat} {platform : Platform}
    (unfiltered : options.filter = none)
    (filtered : other.filter = column.map fun c => { column := c, platform := platform })
    (header : Row) (rows : List Row) :
    (fatesFrom other languages 0 rows).filterMap (phraseOf? ·.2) =
      Sheet.phrasesFor ⟨header, rows.map .ok⟩ column platform
        ((fatesFrom options languages 0 rows).filterMap (phraseOf? ·.2)) := by
  cases column with
  | none => rw [fatesFrom_congr (filtered.trans unfiltered.symm), Sheet.phrasesFor]
  | some c =>
    simp only [Sheet.phrasesFor, fatesFrom, List.filterMap_map, List.filter_filterMap]
    apply List.filterMap_congr
    rintro ⟨row, i⟩ numbered
    have place : rows[i]? = some row := List.mk_mem_zipIdx_iff_getElem?.1 numbered
    simp only [Function.comp_apply, phraseOf?_fate_filtered unfiltered filtered]
    cases kept : phraseOf? (fate options languages (rowNumber i) row) with
    | none => rfl
    | some p =>
      obtain ⟨rfl, -⟩ := eq_of_phraseOf?_fate kept
      have source : Sheet.source? ⟨header, rows.map .ok⟩ (phraseOf languages (rowNumber i) row) =
          some row := by
        simp [Sheet.source?, rowNumber, place, Except.toOption]
      simp only [Option.filter_some, source, Option.any_some]

end Table

namespace Session

/-- The session made for a platform, heeding a platforms column. -/
def onPlatform (s : Session) (platform : Platform) : Session :=
  { s with platform := platform, options := { s.options with filterPlatforms := true } }

/-- **One check speaks for every platform.** If a sheet gives a table while no platforms column is
heeded, then on every platform that heeds it the sheet gives that table without the phrases whose
rows are meant for other platforms, and the same table if there is no such column. -/
theorem checked_for_every_platform {s : Session} (all : s.options.filterPlatforms = false)
    {bytes : Bytes} {table : Table} (prepared : (s.prepare bytes).2 = .ok table) :
    ∃ sheet column, Sheet.read s.options.sheet bytes = .ok sheet ∧
      platformsColumn sheet.header (s.languages.map (·.bind sheet.header)) = .ok column ∧
      ∀ platform, ((s.onPlatform platform).prepare bytes).2 =
        .ok (sheet.phrasesFor column platform table) := by
  have success : s.prepare bytes = ((s.prepare bytes).1, .ok table) := by rw [← prepared]
  obtain ⟨⟨header, rows⟩, column, events, read, found, made, keys, -⟩ := prepare_eq_ok success
  obtain ⟨cells, rfl, kept, -⟩ := Table.ofRows_eq_ok made
  refine ⟨_, column, read, found, fun platform => ?_⟩
  have unfiltered : (s.tableOptions column).filter = none := by simp [tableOptions, all]
  refine prepare_snd_of_table (s := s.onPlatform platform) read found ?_
    ((Keys.check_eq_ok keys).sublist (Sheet.phrasesFor_sublist ..))
  rw [Table.ofRows_map_ok, kept]
  exact congrArg Except.ok (Table.kept_filtered unfiltered rfl header cells)

/-- Rows for one platform, for two, for all, and for one that does not exist. -/
theorem checked_for_every_platform_of_each_kind :
    let s : Session :=
      { platform := .android
        languages :=
          [{ id := "en".toList, destination := [] }, { id := "fr".toList, destination := [] }]
        options := { filterPlatforms := false, strictKeys := true } }
    let bytes := Utf8.encode <| String.toList
      "key,en,Platforms,fr\nHeader,Top,,\nhi,Hi,\"iOS, web\",Salut\nno,No,android,\n,X,TV,\nx,,ios,\n"
    s.options.filterPlatforms = false ∧
    ∃ table, (s.prepare bytes).2 = .ok table ∧ table.map (·.row) = [2, 3, 4, 5] ∧
      ((s.onPlatform .ios).prepare bytes).2.toOption.map (·.map (·.row)) = some [2, 3] ∧
      ∃ sheet column, Sheet.read {} bytes = .ok sheet ∧
        platformsColumn sheet.header (s.languages.map (·.bind sheet.header)) = .ok column ∧
        ∀ platform, ((s.onPlatform platform).prepare bytes).2 =
          .ok (sheet.phrasesFor column platform table) := by
  intro s bytes
  have handed : ∃ table ∈ (s.prepare bytes).2.toOption, table.map (·.row) = [2, 3, 4, 5] := by
    decide +kernel
  obtain ⟨s', table, prepared, rows⟩ := exists_prepared handed
  have result : (s.prepare bytes).2 = .ok table := by rw [prepared]
  have ios : ((s.onPlatform .ios).prepare bytes).2.toOption.map (·.map (·.row)) =
      some [2, 3] := by decide +kernel
  exact ⟨rfl, table, result, rows, ios, checked_for_every_platform rfl result⟩

end Session

end Phrasebook

import Phrasebook.Proofs.History
import Phrasebook.Proofs.KeyOrder

namespace Phrasebook

theorem Keys.exempt_congr {p q : Phrase} (same : p.key = q.key) : exempt p = exempt q := by
  simp only [exempt, Phrase.isHeader, same]

/-- No other phrase has the key of a phrase that counts. -/
theorem Keys.InOrder.filter_key {strict : Bool} {table : Table} (h : InOrder strict table)
    {p : Phrase} (mem : p ∈ table) (counts : exempt p = false) :
    table.filter (·.key == p.key) = [p] := by
  refine filter_eq_singleton mem (beq_self_eq_true _) (h.distinct.imp ?_)
  rintro q r (free | differ) ⟨first, second⟩
  · -- Whether a phrase is exempt is a matter of its key, so `q` with the key of `p` would count.
    rw [exempt_congr (eq_of_beq first), counts] at free
    cases free
  · exact differ ((eq_of_beq first).trans (eq_of_beq second).symm)

namespace Table

theorem ascending_kept (options : TableOptions) (languages : List Language) (index : Nat)
    (rows : List Row) :
    ((fatesFrom options languages index rows).filterMap (phraseOf? ·.2)).Pairwise
      (·.row < ·.row) := by
  induction rows generalizing index with
  | nil => exact .nil
  | cons row rows ih =>
    have later := ih (index + 1)
    rw [fatesFrom_cons, List.filterMap_cons]
    split
    · exact later
    · rename_i p kept
      refine List.pairwise_cons.2 ⟨fun q mem => ?_, later⟩
      obtain ⟨rfl, -⟩ := eq_of_phraseOf?_fate kept
      obtain ⟨i, row, -, rfl, -⟩ := mem_kept mem
      simp only [phraseOf_row, rowNumber]
      omega

theorem spoken_phraseOf {languages : List Language} (distinct : (languages.map (·.id)).Nodup)
    {number : Nat} {row : Row} (h : (phraseOf languages number row).hasValue = true) :
    ∃ id ∈ languages.map (·.id), ((phraseOf languages number row).value? id).isSome := by
  obtain ⟨id, given⟩ := Phrase.hasValue_eq_true.1 h
  refine ⟨id, ?_, given⟩
  rw [value?_phraseOf distinct] at given
  obtain ⟨text, found⟩ := Option.isSome_iff_exists.1 given
  obtain ⟨l, declared, -⟩ := Option.bind_eq_some_iff.1 found
  have same : l.id = id := by simpa using List.find?_some declared
  exact List.mem_map.2 ⟨l, List.mem_of_find?_eq_some declared, same⟩

/-- What holds of a table that is handed out for the rows of a sheet and the names of the declared
languages. The header is row 1 of the sheet. -/
structure WellFormed (strict : Bool) (ids : List Text) (rows : List (Except Problem Row))
    (table : Table) : Prop where
  ascending : table.Pairwise (·.row < ·.row)
  located : ∀ p ∈ table, ∃ i row, rows[i]? = some (.ok row) ∧ p.row = i + 2 ∧
    p.key = (row.head?.getD []).trim
  spoken : ∀ p ∈ table, ∃ id ∈ ids, (p.value? id).isSome
  full : ∀ p ∈ table, ∀ id text : Text, p.values[id]? = some (some text) → text ≠ []
  unblank : ∀ p ∈ table, ∀ c ∈ p.key, isBlank c = false
  /-- A key is found, and is the key of nothing but what is found. -/
  alone : ∀ p ∈ table, p.key ≠ [] → p.isHeader = false →
    table.find? p.key = some p ∧ table.filter (·.key == p.key) = [p]
  legal : strict = true → ∀ p ∈ table, p.key ≠ [] → p.isHeader = false →
    ∀ c ∈ p.key, c.isAlphanum = true ∨ c = '_'

theorem wellFormed_kept {options : TableOptions} {languages : List Language}
    (distinct : (languages.map (·.id)).Nodup) {rows : List Row} {strict : Bool} {table : Table}
    (made : table = (fatesFrom options languages 0 rows).filterMap (phraseOf? ·.2))
    (order : Keys.InOrder strict table) :
    WellFormed strict (languages.map (·.id)) (rows.map .ok) table := by
  have counts {p : Phrase} (filled : p.key ≠ []) (phrase : p.isHeader = false) :
      Keys.exempt p = false := by
    simp [Keys.exempt, filled, phrase]
  constructor
  case ascending => exact made ▸ ascending_kept options languages 0 rows
  case located =>
    intro p mem
    obtain ⟨i, row, place, rfl, -⟩ := mem_kept (made ▸ mem)
    exact ⟨i, row, by simp [place], by simp [rowNumber], phraseOf_key languages _ row⟩
  case spoken =>
    intro p mem
    obtain ⟨i, row, -, rfl, spoken⟩ := mem_kept (made ▸ mem)
    exact spoken_phraseOf distinct spoken
  case full =>
    intro p mem id text stored empty
    obtain ⟨i, row, -, rfl, -⟩ := mem_kept (made ▸ mem)
    have given : (phraseOf languages (rowNumber (0 + i)) row).value? id = some text := by
      rw [Phrase.value?, stored]
      rfl
    have filled := value?_phraseOf_isEmpty given
    simp [empty] at filled
  case unblank =>
    intro p mem c inside
    simpa using List.any_eq_false.1 (order.unblank p mem) c inside
  case alone =>
    intro p mem filled phrase
    have alone := order.filter_key mem (counts filled phrase)
    refine ⟨?_, alone⟩
    rw [find?, ← List.head?_filter, alone]
    rfl
  case legal =>
    intro on p mem filled phrase c inside
    rcases order.legal on p mem with free | legal
    · rw [counts filled phrase] at free
      cases free
    · simpa [Keys.isKeyChar] using List.all_eq_true.1 legal c inside

end Table

theorem Session.ids_after (s : Session) (calls : List Call) :
    (s.after calls).languages.map (·.id) = s.languages.map (·.id) := by
  have same := congrArg (·.2.map Language.id) (s.declared_after calls)
  simpa [declared, Function.comp_def, Language.unbound] using same

/-- **Every table handed out is well formed**, whatever the session was used for before. -/
theorem prepared_tables_well_formed {platform : Platform} {languages : List Language}
    {fresh s : Session} {calls : List Session.Call} {bytes : Bytes} {table : Table}
    (made : Session.new platform languages = .ok fresh)
    (prepared : (fresh.after calls).prepare bytes = (s, .ok table)) :
    ∃ sheet, Sheet.read (fresh.after calls).options.sheet bytes = .ok sheet ∧
      Table.WellFormed (fresh.after calls).options.strictKeys (languages.map (·.id)) sheet.rows
        table := by
  obtain ⟨rfl, distinct⟩ := Session.new_eq_ok made
  obtain ⟨sheet, column, events, read, -, hrows, keys, -⟩ := Session.prepare_eq_ok prepared
  obtain ⟨rows, cells, kept, -⟩ := Table.ofRows_eq_ok hrows
  have ids := Session.ids_after { platform := platform, languages := languages } calls
  have bound :
      ((Session.after { platform := platform, languages := languages } calls).languages.map
        (·.bind sheet.header)).map (·.id) = languages.map (·.id) := by
    rw [List.map_map]
    exact ids
  refine ⟨sheet, read, ?_⟩
  rw [cells, ← bound]
  exact Table.wellFormed_kept (bound ▸ distinct) kept (Keys.check_eq_ok keys)

/-- The strict check with repeated comments, a row without a key, a row for another platform and a
row without text, in a session that has refused a sheet before. -/
theorem prepared_tables_well_formed_strictly :
    let languages : List Language :=
      [{ id := "en".toList, destination := "en.xml".toList },
        { id := "fr".toList, destination := "fr.xml".toList }]
    let calls : List Session.Call :=
      [.prepare (Utf8.encode "key,fr,en\nhi,Salut,Hi\nhi,Allo,Hello\n".toList),
        .configure { strictKeys := true }]
    let bytes := Utf8.encode <| String.toList
      "key,en,fr,platforms\nHeader,Top,,\n hi ,Hi,Salut,android\nhi,No,,ios\nx,,,\n,Y,,\nHEADER,,B,"
    ∃ (fresh s : Session) (table : Table),
      Session.new .android languages = .ok fresh ∧
      (fresh.after calls).prepare bytes = (s, .ok table) ∧
      table.map (fun p => (p.row, p.key)) =
        [(2, "Header".toList), (3, "hi".toList), (6, []), (7, "HEADER".toList)] ∧
      ∃ sheet, Sheet.read {} bytes = .ok sheet ∧
        Table.WellFormed true ["en".toList, "fr".toList] sheet.rows table := by
  intro languages calls bytes
  let fresh : Session := { platform := .android, languages := languages }
  have made : Session.new .android languages = .ok fresh := rfl
  have handed : ∃ table ∈ ((fresh.after calls).prepare bytes).2.toOption,
      table.map (fun p => (p.row, p.key)) =
        [(2, "Header".toList), (3, "hi".toList), (6, []), (7, "HEADER".toList)] := by
    decide +kernel
  obtain ⟨s, table, prepared, entries⟩ := Session.exists_prepared handed
  exact ⟨fresh, s, table, made, prepared, entries, prepared_tables_well_formed made prepared⟩

end Phrasebook

import Phrasebook.Proofs.Preparing

/-!
# Row by row

Three passes lie between a sheet and a document: rows become phrases, phrases without a text are
dropped, and each document picks its lines from what is left. A walk is the same work told in one
pass: it looks at the cells of one row at a time and says at once what that row adds.
`rendered_walk` says that the three passes do nothing else, so no row is lost, repeated or moved on
the way.
-/

namespace Phrasebook

/-- What decides the fate of every row, once the header of the sheet is known. -/
structure Walk where
  platform : Platform
  options : Options
  filter : Option PlatformFilter
  /-- The declared languages, bound to the columns of the sheet. -/
  languages : List Language

namespace Walk

def rejects (w : Walk) (row : Row) : Bool := w.filter.any (!·.accepts row)

/-- In no declared language has the row a cell that is there and not empty. -/
def blank (w : Walk) (row : Row) : Bool := w.languages.all fun l => (Table.textOf? row l).isNone

/-- The text of a row in the document of a language. A section comment is the text in the reference
language, and none if that language is not declared. -/
def resolved? (w : Walk) (l : Language) (row : Row) : Option Text :=
  if isHeaderKey (Table.keyOf row) then
    (w.languages.find? (·.id == w.options.reference)).bind (Table.textOf? row)
  else Table.textOf? row l

/-- What is warned of a row while the sheet is prepared. -/
def warnings (w : Walk) (number : Nat) (row : Row) : Diagnostics :=
  if w.rejects row then []
  else if w.blank row then [.untranslated number]
  else if w.options.reportMissing && !isHeaderKey (Table.keyOf row)
      && w.languages.any (fun l => (Table.textOf? row l).isNone) then [.incomplete number]
  else []

def rowWarnings (w : Walk) (rows : List Row) : Diagnostics :=
  rows.zipIdx.flatMap fun (row, i) => w.warnings (rowNumber i) row

/-- What is warned once, after the last row. -/
def referenceWarnings (w : Walk) (rows : List Row) : Diagnostics :=
  let comments :=
    rows.any fun row => !w.rejects row && !w.blank row && isHeaderKey (Table.keyOf row)
  if comments && !w.languages.any (·.id == w.options.reference) then
    [.undeclaredReference w.options.reference]
  else []

/-- What a row adds to the document of a language. -/
def contribution (w : Walk) (l : Language) (number : Nat) (row : Row) : Contribution :=
  if w.rejects row then .nothing
  else if w.blank row then .nothing
  else if (Table.keyOf row).isEmpty then .trouble (.keyless number l.id)
  else
    match w.resolved? l row with
    | none => .nothing
    | some value =>
      match Format.line w.platform (Table.keyOf row) value with
      | .ok (some text) => .line text
      | .ok none => .nothing
      | .error fault => .trouble (.inexpressible number l.id fault)

def contributions (w : Walk) (l : Language) (rows : List Row) : List Contribution :=
  rows.zipIdx.map fun (row, i) => w.contribution l (rowNumber i) row

def rendered (w : Walk) (rows : List Row) (l : Language) : Rendered :=
  { document :=
      { language := l.id
        destination := l.destination
        lines := (w.contributions l rows).filterMap (·.line?) }
    diagnostics := (w.contributions l rows).filterMap (·.diagnostic?) }

def tableOptions (w : Walk) : TableOptions :=
  { filter := w.filter, reportMissing := w.options.reportMissing, reference := w.options.reference }

variable {w : Walk}

theorem fate_eq (distinct : (w.languages.map (·.id)).Nodup) (number : Nat) (row : Row) :
    Table.fate w.tableOptions w.languages number row =
      if w.rejects row then .skipped
      else if w.blank row then .dropped
      else .kept (Table.phraseOf w.languages number row) := by
  have spoken : (Table.phraseOf w.languages number row).hasValue = !w.blank row := by
    rw [Table.hasValue_phraseOf distinct, blank, List.not_all_eq_any_not]
    simp
  simp only [Table.fate, spoken, rejects, tableOptions]
  cases w.blank row <;> rfl

theorem diagnosticsOf_events (distinct : (w.languages.map (·.id)).Nodup) (number : Nat)
    (row : Row) :
    diagnosticsOf (Table.eventsOf w.tableOptions number
      (Table.fate w.tableOptions w.languages number row)) = w.warnings number row := by
  rw [fate_eq distinct, warnings]
  split
  · rfl
  · split
    · rfl
    · simp only [Table.eventsOf, Phrase.isHeader, Table.phraseOf_key,
        Table.lacksValue_phraseOf distinct, tableOptions]
      split <;> rfl

theorem valueIn?_phraseOf (distinct : (w.languages.map (·.id)).Nodup) {l : Language}
    (mem : l ∈ w.languages) (number : Nat) (row : Row) :
    Document.valueIn? w.options.reference l.id (Table.phraseOf w.languages number row) =
      w.resolved? l row := by
  have full (found : Option Language) :
      (found.bind (Table.textOf? row)).filter (!·.isEmpty) = found.bind (Table.textOf? row) := by
    cases found with
    | none => rfl
    | some l => simp [Table.textOf?, Option.filter_filter]
  simp only [Document.valueIn?, Phrase.isHeader, Table.phraseOf_key, Table.value?_phraseOf distinct,
    full, resolved?]
  split
  · rfl
  · rw [Table.find?_declared distinct mem]
    rfl

/-- A row that is kept adds what its phrase adds, and every other row adds nothing. -/
theorem contribution_eq (distinct : (w.languages.map (·.id)).Nodup) {l : Language}
    (mem : l ∈ w.languages) (number : Nat) (row : Row) :
    w.contribution l number row =
      match Table.phraseOf? (Table.fate w.tableOptions w.languages number row) with
      | none => .nothing
      | some p => Document.contribution w.platform w.options.reference l.id p := by
  rw [fate_eq distinct, contribution]
  split
  · rfl
  · split
    · rfl
    · have value := valueIn?_phraseOf distinct mem number row
      have key := Table.phraseOf_key w.languages number row
      have place := Table.phraseOf_row w.languages number row
      generalize Table.phraseOf w.languages number row = p at value key place ⊢
      rw [← value, ← key, ← place]
      rfl

/-- Whatever is read off the contributions, and nothing off those that are `nothing`, is the same
for the phrases of the table and for the rows of the walk. -/
theorem filterMap_contributions {α : Type} (distinct : (w.languages.map (·.id)).Nodup)
    {l : Language} (mem : l ∈ w.languages) (rows : List Row) (f : Contribution → Option α)
    (silent : f .nothing = none) :
    (((Table.fatesFrom w.tableOptions w.languages 0 rows).filterMap (Table.phraseOf? ·.2)).map
        (Document.contribution w.platform w.options.reference l.id)).filterMap f =
      (w.contributions l rows).filterMap f := by
  rw [List.map_filterMap, List.filterMap_filterMap, Table.fatesFrom, contributions,
    List.filterMap_map, List.filterMap_map]
  congr 1
  funext numbered
  simp only [Function.comp_apply, contribution_eq distinct mem]
  cases Table.phraseOf?
    (Table.fate w.tableOptions w.languages (rowNumber numbered.2) numbered.1) with
  | none => exact silent.symm
  | some p => rfl

theorem rendered_walk (distinct : (w.languages.map (·.id)).Nodup) {l : Language}
    (mem : l ∈ w.languages) (rows : List Row) :
    Document.render w.platform w.options.reference
      ((Table.fatesFrom w.tableOptions w.languages 0 rows).filterMap (Table.phraseOf? ·.2)) l =
      w.rendered rows l := by
  rw [Document.render, rendered, ← filterMap_contributions distinct mem rows (·.line?) rfl,
    ← filterMap_contributions distinct mem rows (·.diagnostic?) rfl]

theorem diagnosticsOf_fates (distinct : (w.languages.map (·.id)).Nodup) (rows : List Row) :
    diagnosticsOf ((Table.fatesFrom w.tableOptions w.languages 0 rows).flatMap
        fun f => Table.eventsOf w.tableOptions f.1 f.2) =
      w.rowWarnings rows := by
  simp only [Table.fatesFrom, rowWarnings, List.flatMap_map, diagnosticsOf,
    List.filterMap_flatMap]
  congr 1
  funext numbered
  exact diagnosticsOf_events distinct (rowNumber numbered.2) numbered.1

theorem diagnosticsOf_reference (distinct : (w.languages.map (·.id)).Nodup) (rows : List Row) :
    diagnosticsOf (Table.referenceEvents w.options.reference w.languages
        ((Table.fatesFrom w.tableOptions w.languages 0 rows).filterMap (Table.phraseOf? ·.2))) =
      w.referenceWarnings rows := by
  have comments : ∀ index,
      ((Table.fatesFrom w.tableOptions w.languages index rows).filterMap
        (Table.phraseOf? ·.2)).any (·.isHeader) =
      rows.any fun row => !w.rejects row && !w.blank row && isHeaderKey (Table.keyOf row) := by
    induction rows with
    | nil => intro index; rfl
    | cons row rows ih =>
      intro index
      rw [Table.fatesFrom_cons, List.filterMap_cons, List.any_cons, ← ih (index + 1),
        fate_eq distinct]
      cases w.rejects row
      · cases w.blank row <;> simp [Table.phraseOf?, Phrase.isHeader]
      · simp [Table.phraseOf?]
  rw [Table.referenceEvents, comments 0, referenceWarnings]
  split <;> rfl

end Walk

/-- The walk over a sheet in a session with these options and this platforms column. -/
def Walk.over (platform : Platform) (options : Options) (column : Option Nat)
    (languages : List Language) : Walk :=
  { platform := platform
    options := options
    filter :=
      if options.filterPlatforms then column.map fun c => { column := c, platform := platform }
      else none
    languages := languages }

/-- What a session recorded while it prepared a sheet, what it renders of the table, and what it
then hands out and records, is what the walk over the rows finds. -/
structure Walk.Tells (w : Walk) (rows : List Row) (s : Session) (table : Table) : Prop where
  recorded : s.diagnostics = w.rowWarnings rows ++ w.referenceWarnings rows
  rendered : s.rendered table = w.languages.map (w.rendered rows)
  handed : (s.render table).2 = w.languages.map fun l => (w.rendered rows l).document
  noted : (s.render table).1.diagnostics =
    w.rowWarnings rows ++ w.referenceWarnings rows ++
      w.languages.flatMap fun l => (w.rendered rows l).diagnostics

/-- A session hands out what it has rendered and records what was found wrong with it. -/
theorem Walk.Tells.of_rendered {w : Walk} {rows : List Row} {s : Session} {table : Table}
    (recorded : s.diagnostics = w.rowWarnings rows ++ w.referenceWarnings rows)
    (rendered : s.rendered table = w.languages.map (w.rendered rows)) : w.Tells rows s table := by
  refine ⟨recorded, rendered, ?handed, ?noted⟩
  case handed => rw [Session.render, rendered, List.map_map]; rfl
  case noted => rw [Session.diagnostics_render, recorded, rendered, List.flatMap_map]

/-- **Every row is accounted for.** Once a sheet has been prepared, all rows below its header have
been read, and the walk over them tells every line and every diagnostic of every language. -/
theorem every_row_accounted {platform : Platform} {languages : List Language} {fresh s : Session}
    {options : Options} {bytes : Bytes} {table : Table}
    (made : Session.new platform languages = .ok fresh)
    (prepared : { fresh with options := options }.prepare bytes = (s, .ok table)) :
    ∃ (sheet : Sheet) (rows : List Row) (column : Option Nat),
      Sheet.read options.sheet bytes = .ok sheet ∧ sheet.rows = rows.map .ok ∧
      platformsColumn sheet.header (languages.map (·.bind sheet.header)) = .ok column ∧
      (Walk.over platform options column (languages.map (·.bind sheet.header))).Tells
        rows s table := by
  obtain ⟨rfl, distinct⟩ := Session.new_eq_ok made
  obtain ⟨sheet, column, events, read, found, hrows, -, rfl⟩ := Session.prepare_eq_ok prepared
  obtain ⟨rows, cells, rfl, rfl⟩ := Table.ofRows_eq_ok hrows
  let w := Walk.over platform options column (languages.map (·.bind sheet.header))
  have bound : (w.languages.map (·.id)).Nodup := by
    simpa [w, Walk.over, Function.comp_def, Language.bind] using distinct
  refine ⟨sheet, rows, column, read, cells, found, .of_rendered ?_ ?_⟩
  · rw [← Walk.diagnosticsOf_fates bound, ← Walk.diagnosticsOf_reference bound]
    simp only [Session.diagnostics, diagnosticsOf_append]
    exact List.append_nil _
  · exact List.map_congr_left fun l mem => Walk.rendered_walk (w := w) bound mem rows

/-- A sheet whose rows meet every fate: a comment, a phrase, a phrase for another platform, a row
without text, a text without key and a key that the format refuses. -/
theorem every_row_accounted_of_each_fate :
    let languages : List Language :=
      [{ id := "en".toList, destination := "en.xml".toList },
        { id := "fr".toList, destination := "fr.xml".toList }]
    let bytes := Utf8.encode <| String.toList
      "key,en,fr,platforms\nHeader,Top,,\nhi,Hi,Salut,android\nno,No,Non,ios\nx,,,\n,Y,,\na<b,Z,,\n"
    ∃ (fresh s : Session) (table : Table),
      Session.new .android languages = .ok fresh ∧
      { fresh with options := {} }.prepare bytes = (s, .ok table) ∧ table.length = 4 ∧
      ∃ (sheet : Sheet) (rows : List Row) (column : Option Nat),
        Sheet.read {} bytes = .ok sheet ∧ sheet.rows = rows.map .ok ∧
        platformsColumn sheet.header (languages.map (·.bind sheet.header)) = .ok column ∧
        (Walk.over .android {} column (languages.map (·.bind sheet.header))).Tells
          rows s table := by
  intro languages bytes
  have made : Session.new .android languages =
      .ok { platform := .android, languages := languages } := rfl
  let fresh : Session := { platform := .android, languages := languages }
  have handed : ∃ table ∈ ({ fresh with options := {} }.prepare bytes).2.toOption,
      table.length = 4 := by decide +kernel
  obtain ⟨s, table, prepared, four⟩ := Session.exists_prepared handed
  exact ⟨fresh, s, table, made, prepared, four, every_row_accounted made prepared⟩

end Phrasebook

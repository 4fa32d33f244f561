import Phrasebook.Proofs.Reporting
import Phrasebook.Proofs.RowByRow
import Phrasebook.Proofs.Tabulation

namespace Phrasebook

/-- Whether the diagnostic is the warning of a row that lacks some text. -/
def Diagnostic.isIncomplete (d : Diagnostic) : Bool := d.row.any fun row => d == .incomplete row

theorem Diagnostic.isIncomplete_incomplete (row : Nat) : (incomplete row).isIncomplete = true :=
  beq_self_eq_true (incomplete row)

theorem Diagnostic.isIncomplete_untranslated (row : Nat) :
    (untranslated row).isIncomplete = false := by
  refine beq_false_of_ne fun same => ?_
  have message := congrArg Diagnostic.message same
  simp only [untranslated, incomplete, rowWarning, List.append_assoc] at message
  have ending := List.append_cancel_left (List.append_cancel_left message)
  exact absurd ending (by decide)

theorem Diagnostic.isIncomplete_of_isError {d : Diagnostic} (h : d.isError = true) :
    d.isIncomplete = false := by
  unfold isIncomplete
  cases d.row with
  | none => rfl
  | some row =>
    refine beq_false_of_ne ?_
    rintro rfl
    cases h

/-- Where no row is said to be incomplete, leaving such warnings out changes nothing. -/
theorem Diagnostics.filter_isIncomplete {ds : Diagnostics}
    (h : ∀ d ∈ ds, d.isIncomplete = false) :
    ds.filter (!·.isIncomplete) = ds ∧ ds.filter (·.isIncomplete) = [] := by
  constructor
  · apply List.filter_eq_self.2
    intro d mem
    rw [h d mem]
    rfl
  · apply List.filter_eq_nil_iff.2
    intro d mem
    rw [h d mem]
    exact Bool.false_ne_true

namespace Walk

/-- The row is kept, is no section comment, and lacks a text in some declared language. -/
def incomplete (w : Walk) (row : Row) : Bool :=
  !w.rejects row && !w.blank row && !isHeaderKey (Table.keyOf row)
    && w.languages.any fun l => (Table.textOf? row l).isNone

def incompleteRows (w : Walk) (rows : List Row) : List Nat :=
  (rows.zipIdx.filter fun (row, _) => w.incomplete row).map fun (_, i) => rowNumber i

/-- The walk with other choices about what is reported. -/
def reporting (w : Walk) (reportMissing : Bool) : Walk :=
  { w with options := { w.options with reportMissing := reportMissing } }

/-- Of one row: with the option on there is one warning more if the row is incomplete, and there is
no other difference. -/
theorem warnings_reporting (w : Walk) (number : Nat) (row : Row) :
    (w.reporting false).warnings number row =
        ((w.reporting true).warnings number row).filter (!·.isIncomplete) ∧
      ((w.reporting true).warnings number row).filter (·.isIncomplete) =
        if w.incomplete row then [.incomplete number] else [] := by
  have told (b : Bool) : (w.reporting b).warnings number row =
      if w.rejects row then []
      else if w.blank row then [.untranslated number]
      else if b && !isHeaderKey (Table.keyOf row)
          && w.languages.any (fun l => (Table.textOf? row l).isNone) then [.incomplete number]
      else [] := rfl
  rw [told, told, incomplete]
  cases w.rejects row with
  | true => exact ⟨rfl, rfl⟩
  | false =>
    cases w.blank row with
    | true => simp [Diagnostic.isIncomplete_untranslated]
    | false =>
      simp only [Bool.not_false, Bool.false_and, Bool.true_and, Bool.false_eq_true, if_false]
      split
      · simp [Diagnostic.isIncomplete_incomplete]
      · exact ⟨rfl, rfl⟩

theorem rowWarnings_reporting (w : Walk) (rows : List Row) :
    (w.reporting false).rowWarnings rows =
        ((w.reporting true).rowWarnings rows).filter (!·.isIncomplete) ∧
      ((w.reporting true).rowWarnings rows).filter (·.isIncomplete) =
        (w.incompleteRows rows).map .incomplete := by
  simp only [rowWarnings, incompleteRows, List.filter_flatMap, List.map_map]
  refine ⟨List.flatMap_congr fun numbered _ => (w.warnings_reporting _ _).1, ?_⟩
  induction rows.zipIdx with
  | nil => rfl
  | cons numbered rest ih =>
    rw [List.flatMap_cons, ih, (w.warnings_reporting _ _).2, List.filter_cons]
    split <;> rfl

theorem isIncomplete_referenceWarnings (w : Walk) (rows : List Row) :
    ∀ d ∈ w.referenceWarnings rows, d.isIncomplete = false := by
  intro d mem
  unfold referenceWarnings at mem
  dsimp only at mem
  split at mem
  · obtain rfl := List.mem_singleton.1 mem
    rfl
  · cases mem

end Walk

namespace Session

/-- The session with other choices about what is reported and how the work is done. -/
def reporting (s : Session) (reportMissing : Bool) (reference : Text) (parallel : Bool) : Session :=
  { s with
    options :=
      { s.options with reportMissing := reportMissing, reference := reference, parallel := parallel } }

def checking (s : Session) (strictKeys : Bool) : Session :=
  { s with options := { s.options with strictKeys := strictKeys } }

/-- The walk over a sheet with its rows, if the sheet can be read and every language has a column. -/
def walk? (s : Session) (bytes : Bytes) : Option (Walk × List (Except Problem Row)) := do
  let sheet ← (Sheet.read s.options.sheet bytes).toOption
  let languages := s.languages.map (·.bind sheet.header)
  let column ← (platformsColumn sheet.header languages).toOption
  return (Walk.over s.platform s.options column languages, sheet.rows)

/-- What is warned of the rows and of the reference language before a table is complete, or before
the first row that could not be read. -/
def warned (s : Session) (bytes : Bytes) : Diagnostics :=
  match s.walk? bytes with
  | none => []
  | some (w, rows) =>
    w.rowWarnings (Table.readable rows) ++
      if (Table.fault? rows).isNone then w.referenceWarnings (Table.readable rows) else []

/-- The numbers of the incomplete rows among those that are read. -/
def incompleteRows (s : Session) (bytes : Bytes) : List Nat :=
  match s.walk? bytes with
  | none => []
  | some (w, rows) => w.incompleteRows (Table.readable rows)

theorem diagnostics_prepare_eq {s : Session} (distinct : (s.languages.map (·.id)).Nodup)
    (bytes : Bytes) :
    (s.prepare bytes).1.diagnostics = s.warned bytes ++ fatal (s.prepare bytes).2 := by
  suffices recorded : diagnosticsOf (s.preparation bytes).events = s.warned bytes by
    rw [diagnostics_prepare_events, recorded]
  unfold preparation warned walk?
  cases Sheet.read s.options.sheet bytes with
  | error p => rfl
  | ok sheet =>
    dsimp only [Except.toOption, bind, Option.bind]
    cases platformsColumn sheet.header (s.languages.map (·.bind sheet.header)) with
    | error p => rfl
    | ok column =>
      let w := Walk.over s.platform s.options column (s.languages.map (·.bind sheet.header))
      have bound : (w.languages.map (·.id)).Nodup := by
        simpa [w, Walk.over, Function.comp_def, Language.bind] using distinct
      have rows := Walk.diagnosticsOf_fates bound (Table.readable sheet.rows)
      have reference := Walk.diagnosticsOf_reference bound (Table.readable sheet.rows)
      dsimp only [pure]
      rw [Table.ofRows_eq]
      cases Table.fault? sheet.rows with
      | some p => exact rows.trans (List.append_nil _).symm
      | none =>
        dsimp only
        rw [diagnosticsOf_append, diagnosticsOf_append]
        exact (List.append_nil _).trans (congrArg₂ (· ++ ·) rows reference)

theorem prepare_snd_reporting (s : Session) (reportMissing : Bool) (reference : Text)
    (parallel : Bool) (bytes : Bytes) :
    ((s.reporting reportMissing reference parallel).prepare bytes).2 = (s.prepare bytes).2 := by
  rw [prepare_snd, prepare_snd]
  have sheet : (s.reporting reportMissing reference parallel).options.sheet = s.options.sheet := rfl
  rw [sheet]
  cases Sheet.read s.options.sheet bytes with
  | error p => rfl
  | ok sheet =>
    have languages : (s.reporting reportMissing reference parallel).languages = s.languages := rfl
    dsimp only [bind, Except.bind, tabulate]
    rw [languages]
    cases platformsColumn sheet.header (s.languages.map (·.bind sheet.header)) with
    | error p => rfl
    | ok column =>
      have filter : ((s.reporting reportMissing reference parallel).tableOptions column).filter =
          (s.tableOptions column).filter := rfl
      dsimp only [pure, Except.pure]
      rw [Table.ofRows_snd_congr filter]
      rfl

theorem warned_reporting (s : Session) (reference : Text) (parallel : Bool) (bytes : Bytes) :
    (s.reporting false reference parallel).warned bytes =
        ((s.reporting true reference parallel).warned bytes).filter (!·.isIncomplete) ∧
      ((s.reporting true reference parallel).warned bytes).filter (·.isIncomplete) =
        (s.incompleteRows bytes).map .incomplete := by
  have walks (b : Bool) : (s.reporting b reference parallel).walk? bytes =
      (s.walk? bytes).map fun x =>
        ({ x.1 with options := (s.reporting b reference parallel).options }, x.2) := by
    have sheet : (s.reporting b reference parallel).options.sheet = s.options.sheet := rfl
    have languages : (s.reporting b reference parallel).languages = s.languages := rfl
    unfold walk?
    rw [sheet, languages]
    cases Sheet.read s.options.sheet bytes with
    | error p => rfl
    | ok sheet =>
      dsimp only [Except.toOption, bind, Option.bind]
      cases platformsColumn sheet.header (s.languages.map (·.bind sheet.header)) <;> rfl
  unfold warned incompleteRows
  rw [walks, walks]
  cases s.walk? bytes with
  | none => exact ⟨rfl, rfl⟩
  | some x =>
    obtain ⟨w, rows⟩ := x
    let v : Walk := { w with options := (s.reporting true reference parallel).options }
    obtain ⟨quiet, named⟩ := v.rowWarnings_reporting (Table.readable rows)
    have reference_warnings : ∀ d ∈ (if (Table.fault? rows).isNone then
        v.referenceWarnings (Table.readable rows) else []), d.isIncomplete = false := by
      split
      · exact v.isIncomplete_referenceWarnings _
      · exact List.forall_mem_nil _
    obtain ⟨same, none⟩ := Diagnostics.filter_isIncomplete reference_warnings
    dsimp only [Option.map_some]
    rw [List.filter_append, List.filter_append]
    exact ⟨congrArg₂ (· ++ ·) quiet same.symm,
      (congrArg₂ (· ++ ·) named none).trans (List.append_nil _)⟩

theorem isIncomplete_fatal (result : Except Problem Table) :
    ∀ d ∈ fatal result, d.isIncomplete = false := by
  intro d mem
  cases result with
  | ok table => cases mem
  | error p =>
    obtain rfl := List.mem_singleton.1 mem
    exact Diagnostic.isIncomplete_of_isError rfl

/-- What is reported when missing texts are, and what is when they are not. -/
theorem diagnostics_reporting {s : Session} (distinct : (s.languages.map (·.id)).Nodup)
    (reference : Text) (parallel : Bool) (bytes : Bytes) :
    ((s.reporting false reference parallel).prepare bytes).1.diagnostics =
        ((s.reporting true reference parallel).prepare bytes).1.diagnostics.filter
          (!·.isIncomplete) ∧
      ((s.reporting true reference parallel).prepare bytes).1.diagnostics.filter
          (·.isIncomplete) = (s.incompleteRows bytes).map .incomplete := by
  have told (b : Bool) : ((s.reporting b reference parallel).prepare bytes).1.diagnostics =
      (s.reporting b reference parallel).warned bytes ++ fatal (s.prepare bytes).2 := by
    rw [diagnostics_prepare_eq (s := s.reporting b reference parallel) distinct,
      prepare_snd_reporting]
  obtain ⟨quiet, named⟩ := s.warned_reporting reference parallel bytes
  obtain ⟨same, none⟩ := Diagnostics.filter_isIncomplete (isIncomplete_fatal (s.prepare bytes).2)
  rw [told, told, List.filter_append, List.filter_append, quiet, named, same, none]
  exact ⟨rfl, List.append_nil _⟩

theorem prepare_snd_of_strict {s : Session} {bytes : Bytes} {table : Table}
    (h : ((s.checking true).prepare bytes).2 = .ok table) :
    ((s.checking false).prepare bytes).2 = .ok table := by
  have prepared : (s.checking true).prepare bytes =
      (((s.checking true).prepare bytes).1, .ok table) := by rw [← h]
  obtain ⟨sheet, column, events, read, found, made, keys, -⟩ := prepare_eq_ok prepared
  exact prepare_snd_of_table (s := s.checking false) read found (congrArg Prod.snd made)
    (Keys.check_eq_ok keys).lax

/-- **Reporting has no say in the verdict.** Whatever a session was used for before, its choices
about missing texts, the reference language and parallel work change neither the result of a
preparation nor the columns of the languages. Without the report of missing texts just the warnings
about incomplete rows are gone, and these name the rows that are kept, are no section comments and
lack a text, in their order. What passes the strict check of keys passes without it. -/
theorem reporting_keeps_verdict {platform : Platform} {languages : List Language} {fresh : Session}
    (made : Session.new platform languages = .ok fresh) (calls : List Call) (bytes : Bytes) :
    let s := fresh.after calls
    (∀ reportMissing reference parallel,
      let t := s.reporting reportMissing reference parallel
      (t.prepare bytes).2 = (s.prepare bytes).2 ∧
        (t.prepare bytes).1.languages = (s.prepare bytes).1.languages) ∧
    (∀ reference parallel,
      let quiet := ((s.reporting false reference parallel).prepare bytes).1.diagnostics
      let told := ((s.reporting true reference parallel).prepare bytes).1.diagnostics
      quiet = told.filter (!·.isIncomplete) ∧
        told.filter (·.isIncomplete) = (s.incompleteRows bytes).map .incomplete) ∧
    ∀ table, ((s.checking true).prepare bytes).2 = .ok table →
      ((s.checking false).prepare bytes).2 = .ok table := by
  intro s
  obtain ⟨rfl, distinct⟩ := new_eq_ok made
  have names : (s.languages.map (·.id)).Nodup := by
    rw [ids_after]
    exact distinct
  refine ⟨?verdict, ?diagnostics, fun table => prepare_snd_of_strict⟩
  case verdict =>
    intro reportMissing reference parallel t
    refine ⟨s.prepare_snd_reporting reportMissing reference parallel bytes, ?_⟩
    rw [languages_prepare, languages_prepare]
    rfl
  case diagnostics =>
    intro reference parallel quiet told
    exact diagnostics_reporting names reference parallel bytes

/-- Of the rows that lack a text, one is a comment, one is meant for another platform and one has no
text at all. -/
theorem reporting_keeps_verdict_of_incomplete_rows :
    let languages : List Language :=
      [{ id := "en".toList, destination := "en.xml".toList },
        { id := "fr".toList, destination := "fr.xml".toList }]
    let calls : List Call := [.configure { reference := "de".toList }]
    let bytes := Utf8.encode <| String.toList
      "key,en,fr,platforms\nHeader,Top,,\nhi,Hi,,\nno,,Non,ios\nx,,,\nyes,Yes,Oui,\nbye,,Salut,android\n"
    ∃ (fresh : Session) (table : Table), Session.new .android languages = .ok fresh ∧
      let s := fresh.after calls
      let told := ((s.reporting true "fr".toList false).prepare bytes).1.diagnostics
      s.incompleteRows bytes = [3, 7] ∧
      told.filter (·.isIncomplete) = [.incomplete 3, .incomplete 7] ∧
      ((s.reporting false "fr".toList false).prepare bytes).1.diagnostics =
        told.filter (!·.isIncomplete) ∧
      ((s.checking true).prepare bytes).2 = .ok table ∧
      ((s.checking false).prepare bytes).2 = .ok table ∧
      ((s.reporting true "fr".toList false).prepare bytes).2 = (s.prepare bytes).2 := by
  intro languages calls bytes
  let fresh : Session := { platform := .android, languages := languages }
  have made : Session.new .android languages = .ok fresh := rfl
  have rows : (fresh.after calls).incompleteRows bytes = [3, 7] := by decide +kernel
  obtain ⟨verdict, diagnostics, lax⟩ := reporting_keeps_verdict made calls bytes
  obtain ⟨quiet, named⟩ := diagnostics "fr".toList false
  have handed : ∃ table ∈ (((fresh.after calls).checking true).prepare bytes).2.toOption,
      table.map (·.row) = [2, 3, 6, 7] := by decide +kernel
  obtain ⟨s', table, prepared, -⟩ := exists_prepared handed
  have strict : (((fresh.after calls).checking true).prepare bytes).2 = .ok table := by
    rw [prepared]
  rw [rows] at named
  exact ⟨fresh, table, made, rows, named, quiet, strict, lax table strict,
    (verdict true "fr".toList false).1⟩

end Session

end Phrasebook

import Phrasebook.Proofs.PreparedTable
import Phrasebook.Proofs.Publishing
import Phrasebook.Proofs.Reuse

namespace Phrasebook

/-- Diagnostics about rows, from the top of the sheet down, with no two about one row. -/
structure Diagnostics.InRowOrder (ds : Diagnostics) : Prop where
  located : ∀ d ∈ ds, d.row.isSome
  ascending : (ds.filterMap (·.row)).Pairwise (· < ·)

/-- What is warned of the rows from an index on. -/
structure Diagnostics.RowWarnings (index : Nat) (ds : Diagnostics) : Prop where
  inRowOrder : ds.InRowOrder
  warnings : ∀ d ∈ ds, d.severity = .warning ∧ d.language = none
  below : ∀ n ∈ ds.filterMap (·.row), rowNumber index ≤ n

namespace Diagnostics.RowWarnings

theorem nil (index : Nat) : RowWarnings index [] :=
  ⟨⟨by simp, .nil⟩, by simp, by simp⟩

theorem skip {index : Nat} {ds : Diagnostics} (h : RowWarnings (index + 1) ds) :
    RowWarnings index ds := by
  refine ⟨h.inRowOrder, h.warnings, fun n mem => ?_⟩
  have := h.below n mem
  simp only [rowNumber] at this ⊢
  omega

theorem cons {index : Nat} {ds : Diagnostics} (h : RowWarnings (index + 1) ds) (message : Text) :
    RowWarnings index (.rowWarning (rowNumber index) message :: ds) := by
  have rows : (Diagnostic.rowWarning (rowNumber index) message :: ds).filterMap (·.row) =
      rowNumber index :: ds.filterMap (·.row) := rfl
  refine ⟨⟨?_, ?_⟩, ?_, ?_⟩
  · exact List.forall_mem_cons.2 ⟨rfl, h.inRowOrder.located⟩
  · rw [rows]
    refine List.pairwise_cons.2 ⟨fun n mem => ?_, h.inRowOrder.ascending⟩
    have := h.below n mem
    simp only [rowNumber] at this ⊢
    omega
  · exact List.forall_mem_cons.2 ⟨⟨rfl, rfl⟩, h.warnings⟩
  · rw [rows]
    exact List.forall_mem_cons.2 ⟨Nat.le_refl _, h.skip.below⟩

end Diagnostics.RowWarnings

namespace Table

theorem diagnosticsOf_eventsOf (options : TableOptions) (number : Nat) (f : Fate) :
    diagnosticsOf (eventsOf options number f) = [] ∨
      ∃ message, diagnosticsOf (eventsOf options number f) = [.rowWarning number message] := by
  cases f with
  | skipped => exact .inl rfl
  | dropped => exact .inr ⟨_, rfl⟩
  | kept p =>
    simp only [eventsOf]
    split
    · exact .inr ⟨_, rfl⟩
    · exact .inl rfl

theorem rowWarnings_ofRowsFrom (options : TableOptions) (languages : List Language) (index : Nat)
    (rows : List (Except Problem Row)) :
    (diagnosticsOf (ofRowsFrom options languages index rows).1).RowWarnings index := by
  induction rows generalizing index with
  | nil => exact .nil index
  | cons row rows ih =>
    cases row with
    | error problem => exact .nil index
    | ok row =>
      have later := ih (index + 1)
      simp only [ofRowsFrom, diagnosticsOf_append]
      rcases diagnosticsOf_eventsOf options (rowNumber index)
        (fate options languages (rowNumber index) row) with silent | ⟨message, warned⟩
      · rw [silent]
        exact later.skip
      · rw [warned]
        exact later.cons message

theorem diagnosticsOf_referenceEvents (reference : Text) (languages : List Language)
    (table : Table) :
    diagnosticsOf (referenceEvents reference languages table) = [] ∨
      diagnosticsOf (referenceEvents reference languages table) =
        [.undeclaredReference reference] := by
  unfold referenceEvents
  split
  · exact .inr rfl
  · exact .inl rfl

/-- What is recorded for the rows of a sheet: warnings of the rows, and after them at most one of
the reference language. -/
theorem diagnosticsOf_ofRows (options : TableOptions) (languages : List Language)
    (rows : List (Except Problem Row)) :
    ∃ warned reference : Diagnostics,
      diagnosticsOf (ofRows options languages rows).1 = warned ++ reference ∧
      warned.RowWarnings 0 ∧
      (reference = [] ∨ reference = [.undeclaredReference options.reference]) := by
  have warnings := rowWarnings_ofRowsFrom options languages 0 rows
  unfold ofRows
  split
  · rename_i events table run
    rw [run] at warnings
    exact ⟨_, _, diagnosticsOf_append .., warnings, diagnosticsOf_referenceEvents ..⟩
  · rename_i events problem run
    rw [run] at warnings
    exact ⟨_, [], (List.append_nil _).symm, warnings, .inl rfl⟩

end Table

namespace Document

/-- What is found wrong with a phrase points at its row and names the language of the document. -/
theorem diagnostic?_contribution {platform : Platform} {reference language : Text} {p : Phrase}
    {d : Diagnostic}
    (h : (contribution platform reference language p).diagnostic? = some d) :
    d.row = some p.row ∧ d.language = some language := by
  unfold contribution at h
  split at h
  · obtain rfl := Option.some.inj h
    exact ⟨rfl, rfl⟩
  · split at h
    · cases h
    · split at h
      · cases h
      · cases h
      · obtain rfl := Option.some.inj h
        exact ⟨rfl, rfl⟩

theorem inRowOrder_render {table : Table} (ascending : table.Pairwise (·.row < ·.row))
    (platform : Platform) (reference : Text) (l : Language) :
    (render platform reference table l).diagnostics.InRowOrder ∧
      ∀ d ∈ (render platform reference table l).diagnostics, d.language = some l.id := by
  have found (d : Diagnostic) (mem : d ∈ (render platform reference table l).diagnostics) :
      d.row.isSome ∧ d.language = some l.id := by
    obtain ⟨c, listed, trouble⟩ := List.mem_filterMap.1 mem
    obtain ⟨p, -, rfl⟩ := List.mem_map.1 listed
    obtain ⟨row, language⟩ := diagnostic?_contribution trouble
    exact ⟨by rw [row]; rfl, language⟩
  refine ⟨⟨fun d mem => (found d mem).1, ?_⟩, fun d mem => (found d mem).2⟩
  rw [render, List.filterMap_filterMap, List.filterMap_map, List.pairwise_filterMap]
  apply ascending.imp
  intro p q before m hm n hn
  obtain ⟨d, troubleD, rowD⟩ := Option.bind_eq_some_iff.1 hm
  obtain ⟨e, troubleE, rowE⟩ := Option.bind_eq_some_iff.1 hn
  rw [(diagnostic?_contribution troubleD).1] at rowD
  rw [(diagnostic?_contribution troubleE).1] at rowE
  obtain rfl := Option.some.inj rowD
  obtain rfl := Option.some.inj rowE
  exact before

end Document

namespace Session

/-- The problem that a preparation ends with, as it is reported. -/
def fatal : Except Problem Table → Diagnostics
  | .ok _ => []
  | .error p => [p.diagnostic]

theorem diagnostics_prepare_events (s : Session) (bytes : Bytes) :
    (s.prepare bytes).1.diagnostics =
      diagnosticsOf (s.preparation bytes).events ++ fatal (s.prepare bytes).2 := by
  have ending : diagnosticsOf (problemEvents (s.preparation bytes).table) =
      fatal (s.preparation bytes).table := by
    cases (s.preparation bytes).table <;> rfl
  simp only [prepare, diagnostics, diagnosticsOf_append, ending]

/-- What a preparation reports: row warnings, then at most one warning about the reference language,
then the problem that the preparation ended with. -/
theorem diagnostics_prepare (s : Session) (bytes : Bytes) :
    ∃ warned reference : Diagnostics,
      (s.prepare bytes).1.diagnostics = warned ++ reference ++ fatal (s.prepare bytes).2 ∧
      warned.RowWarnings 0 ∧
      (reference = [] ∨ reference = [.undeclaredReference s.options.reference]) := by
  have recorded : ∃ warned reference : Diagnostics,
      diagnosticsOf (s.preparation bytes).events = warned ++ reference ∧
      warned.RowWarnings 0 ∧
      (reference = [] ∨ reference = [.undeclaredReference s.options.reference]) := by
    have none : Diagnostics.RowWarnings 0 [] := .nil 0
    unfold preparation
    split
    · exact ⟨[], [], rfl, none, .inl rfl⟩
    · rename_i sheet _
      dsimp only
      split
      · exact ⟨[], [], rfl, none, .inl rfl⟩
      · rename_i column _
        obtain ⟨warned, reference, told, rows, last⟩ := Table.diagnosticsOf_ofRows
          (s.tableOptions column) (s.languages.map (·.bind sheet.header)) sheet.rows
        refine ⟨warned, reference, ?_, rows, last⟩
        split
        · rename_i made
          rw [made] at told
          exact told
        · rename_i made
          rw [made] at told
          rw [diagnosticsOf_append, told]
          exact List.append_nil _
  obtain ⟨warned, reference, told, rows, last⟩ := recorded
  exact ⟨warned, reference, by rw [diagnostics_prepare_events, told], rows, last⟩

theorem ascending_of_prepare {s : Session} {bytes : Bytes} {table : Table}
    (h : (s.prepare bytes).2 = .ok table) : table.Pairwise (·.row < ·.row) := by
  have prepared : s.prepare bytes = ((s.prepare bytes).1, .ok table) := by rw [← h]
  obtain ⟨sheet, column, events, -, -, rows, -⟩ := prepare_eq_ok prepared
  obtain ⟨cells, -, rfl, -⟩ := Table.ofRows_eq_ok rows
  exact Table.ascending_kept ..

/-- A compilation goes on from what the preparation reported with what each turn reports. -/
theorem diagnostics_compile {s : Session} {fs : FileSystem} {bytes : Bytes} {table : Table}
    (h : (s.prepare bytes).2 = .ok table) :
    (s.compile fs bytes).1.diagnostics =
      (s.prepare bytes).1.diagnostics ++
        (Publication.turns (Format.frame s.platform) fs (s.rendered table)).flatMap
          (·.diagnostics) := by
  have silent (result : Except Problem (List Path)) : diagnosticsOf (completion result) = [] := by
    cases result <;> rfl
  rw [compile_fst, h]
  simp only [publish, record, diagnostics, diagnosticsOf_append, silent, List.append_nil,
    rendered_prepare, Publication.diagnosticsOf_publish]
  rfl

theorem hasErrors_of_mem {ds : Diagnostics} {d : Diagnostic} (mem : d ∈ ds)
    (h : d.isError = true) : ds.hasErrors = true := List.any_eq_true.2 ⟨d, mem, h⟩

theorem hasErrors_compile {s : Session} {fs : FileSystem} {bytes : Bytes} {p : Problem}
    (h : (s.compile fs bytes).2.2 = .error p) :
    (s.compile fs bytes).1.diagnostics.hasErrors = true := by
  rw [compile_snd] at h
  cases prepared : (s.prepare bytes).2 with
  | error q =>
    obtain ⟨warned, reference, told, -⟩ := s.diagnostics_prepare bytes
    rw [compile_fst, prepared]
    dsimp only
    rw [told, prepared]
    exact hasErrors_of_mem (d := q.diagnostic) (by simp [fatal]) rfl
  | ok table =>
    rw [prepared] at h
    simp only [publish, rendered_prepare, Publication.result_publish] at h
    split at h
    · cases h
    · rename_i spoiled
      have platform : (s.prepare bytes).1.platform = s.platform := rfl
      rw [platform] at spoiled
      obtain ⟨t, turn, failed⟩ :
          ∃ t ∈ Publication.turns (Format.frame s.platform) fs (s.rendered table),
            t.failure? ≠ none := by
        simpa [Turn.failure?_eq_none] using spoiled
      obtain ⟨d, error⟩ := Option.ne_none_iff_exists'.1 failed
      rw [diagnostics_compile prepared]
      refine hasErrors_of_mem (d := d) ?_ (Turn.isError_of_failure error).1
      refine List.mem_append_right _ (List.mem_flatMap.2 ⟨t, turn, ?_⟩)
      simp [Turn.diagnostics, error]

theorem hasErrors_compileFile {s : Session} {fs : FileSystem} {path : Path} {p : Problem}
    (h : (s.compileFile fs path).2.2 = .error p) :
    (s.compileFile fs path).1.diagnostics.hasErrors = true := by
  unfold compileFile at h ⊢
  split at h
  · exact hasErrors_compile h
  · rfl
  · rfl

/-- The diagnostics of a preparation, among them those of the rows and of the reference language. -/
structure PreparationReport (reference : Text) (result : Except Problem Table)
    (ofRows ofReference all : Diagnostics) : Prop where
  inTurn : all = ofRows ++ ofReference ++ fatal result
  inRowOrder : ofRows.InRowOrder
  rowWarnings : ∀ d ∈ ofRows, d.severity = .warning ∧ d.language = none
  once : ofReference.length ≤ 1
  referenceWarning : ∀ d ∈ ofReference,
    d = .undeclaredReference reference ∧ d.severity = .warning ∧ d.row = none
  errors : all.errors = fatal result

theorem preparationReport (s : Session) (bytes : Bytes) :
    ∃ ofRows ofReference, PreparationReport s.options.reference (s.prepare bytes).2
      ofRows ofReference (s.prepare bytes).1.diagnostics := by
  obtain ⟨warned, reference, told, rows, last⟩ := s.diagnostics_prepare bytes
  have general : ∀ d ∈ reference,
      d = .undeclaredReference s.options.reference ∧ d.severity = .warning ∧ d.row = none := by
    intro d mem
    rcases last with rfl | rfl
    · cases mem
    · obtain rfl := List.mem_singleton.1 mem
      exact ⟨rfl, rfl, rfl⟩
  have once : reference.length ≤ 1 := by
    rcases last with rfl | rfl
    · exact Nat.zero_le 1
    · exact Nat.le_refl 1
  refine ⟨warned, reference, told, rows.inRowOrder, rows.warnings, once, general, ?_⟩
  have harmless : ∀ d ∈ warned ++ reference, ¬ d.isError = true := by
    intro d mem
    have warning : d.severity = .warning :=
      (List.mem_append.1 mem).elim (fun h => (rows.warnings d h).1) fun h => (general d h).2.1
    simp [Diagnostic.isError, warning]
  rw [told, Diagnostics.errors, List.filter_append, List.filter_eq_nil_iff.2 harmless]
  cases (s.prepare bytes).2 <;> rfl

/-- **A run reports everything, in the order of its work.** Whatever a session was used for before:
what it reports of a sheet, then of each document in its turn, and that what fails has an error. -/
theorem reports_in_order (s : Session) (fs : FileSystem) (bytes : Bytes) :
    (∃ ofRows ofReference, PreparationReport s.options.reference (s.prepare bytes).2
      ofRows ofReference (s.prepare bytes).1.diagnostics) ∧
    (∀ table, (s.prepare bytes).2 = .ok table →
      let turns := Publication.turns (Format.frame s.platform) fs (s.rendered table)
      turns.map (·.document.language) = s.languages.map (·.id) ∧
      (s.compile fs bytes).1.diagnostics = (s.prepare bytes).1.diagnostics ++
        turns.flatMap (fun t => t.rendered.diagnostics ++ t.failure?.toList) ∧
      ∀ t ∈ turns, t.rendered.diagnostics.InRowOrder ∧
        (∀ d ∈ t.rendered.diagnostics, d.language = some t.document.language) ∧
        ∀ d ∈ t.failure?, d.isError = true ∧ d.language = some t.document.language) ∧
    (∀ p, (s.compile fs bytes).2.2 = .error p →
      (s.compile fs bytes).1.diagnostics.hasErrors = true) ∧
    ∀ path p, (s.compileFile fs path).2.2 = .error p →
      (s.compileFile fs path).1.diagnostics.hasErrors = true := by
  refine ⟨s.preparationReport bytes, ?_, fun p => hasErrors_compile, fun path p =>
    hasErrors_compileFile⟩
  intro table prepared turns
  have documents : turns.map (·.rendered) = s.rendered table :=
    Publication.map_rendered_turns ..
  refine ⟨?_, diagnostics_compile prepared, ?_⟩
  · have languages := congrArg (List.map (·.document.language)) documents
    rw [List.map_map, rendered, Document.renderAll, List.map_map] at languages
    exact languages
  · intro t turn
    have made : t.rendered ∈ s.rendered table := documents ▸ List.mem_map_of_mem turn
    obtain ⟨l, -, own⟩ := List.mem_map.1 made
    obtain ⟨rows, named⟩ :=
      Document.inRowOrder_render (ascending_of_prepare prepared) s.platform s.options.reference l
    rw [Turn.document, ← own]
    refine ⟨rows, named, fun d failed => ?_⟩
    have blamed := Turn.isError_of_failure failed
    rw [Turn.document, ← own] at blamed
    exact blamed

/-- A row without text, a comment in a language that is not declared, a text without key and a key
that the format refuses, in a session used before; one of the two documents cannot be written. -/
theorem reports_in_order_of_each_kind :
    let languages : List Language :=
      [{ id := "en".toList, destination := "en.xml".toList },
        { id := "fr".toList, destination := "no/fr.xml".toList }]
    let fs : FileSystem := { home := [] }
    let s := Session.after { platform := .android, languages := languages }
      [.compile fs [], .configure { reference := "de".toList }]
    let bytes := Utf8.encode "key,en,fr\nx,,\nHeader,Top,\n,Y,\na<b,Z,\n".toList
    ∃ (ofRows ofReference : Diagnostics) (table : Table), (s.prepare bytes).2 = .ok table ∧
      PreparationReport "de".toList (.ok table) ofRows ofReference
        (s.prepare bytes).1.diagnostics ∧
      (s.compile fs bytes).1.diagnostics = (s.prepare bytes).1.diagnostics ++
        (Publication.turns (Format.frame s.platform) fs (s.rendered table)).flatMap
          (fun t => t.rendered.diagnostics ++ t.failure?.toList) ∧
      (s.compile fs bytes).1.diagnostics.map (fun d => (d.row, d.language, d.isError)) =
        [(some 2, none, false), (none, none, false),
          (some 4, some "en".toList, false), (some 5, some "en".toList, true),
          (some 4, some "fr".toList, false), (none, some "fr".toList, true)] ∧
      (s.compile fs bytes).2.2 = .error (.incomplete ["fr".toList]) ∧
      (s.compile fs bytes).1.diagnostics.hasErrors = true ∧
      (s.compileFile fs "no".toList).1.diagnostics.hasErrors = true := by
  intro languages fs s bytes
  have failed : (s.compile fs bytes).2.2 = .error (.incomplete ["fr".toList]) := by
    decide +kernel
  obtain ⟨table, handed⟩ : ∃ table, (s.prepare bytes).2 = .ok table := ⟨_, rfl⟩
  have missing : (s.compileFile fs "no".toList).2.2 = .error (.unreadable .notFound) := rfl
  have reference : s.options.reference = "de".toList := rfl
  obtain ⟨⟨ofRows, ofReference, report⟩, documents, compiled, opened⟩ :=
    reports_in_order s fs bytes
  rw [handed, reference] at report
  have told := (documents table handed).2.1
  have noted : (s.compile fs bytes).1.diagnostics.map (fun d => (d.row, d.language, d.isError)) =
      [(some 2, none, false), (none, none, false),
        (some 4, some "en".toList, false), (some 5, some "en".toList, true),
        (some 4, some "fr".toList, false), (none, some "fr".toList, true)] := by decide +kernel
  exact ⟨ofRows, ofReference, table, handed, report, told, noted, failed, compiled _ failed,
    opened _ _ missing⟩

end Session

end Phrasebook

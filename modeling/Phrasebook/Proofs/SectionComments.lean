import Phrasebook.Proofs.Reporting

namespace Phrasebook

/-- What the section comments of a table come to, in their order: the texts in the reference
language, as far as the platform can write them. -/
def Table.comments (platform : Platform) (reference : Text) (table : Table) : List Text :=
  table.headers.filterMap fun p =>
    ((p.value? reference).filter (!·.isEmpty)).bind fun text =>
      (Format.comment platform text).toOption.join

theorem Table.comments_web (reference : Text) (table : Table) :
    table.comments .web reference = [] := by
  rw [comments, List.filterMap_eq_nil_iff]
  intro p _
  cases (p.value? reference).filter (!·.isEmpty) <;> rfl

namespace Document

/-- The lines of a document, each with the answer to whether a section comment added it. -/
def markedLines (platform : Platform) (reference language : Text) (table : Table) :
    List (Bool × Text) :=
  table.filterMap fun p => (contribution platform reference language p).line?.map (p.isHeader, ·)

def commentLines (platform : Platform) (reference language : Text) (table : Table) : List Text :=
  ((markedLines platform reference language table).filter (·.1)).map (·.2)

theorem map_markedLines (platform : Platform) (reference : Text) (table : Table) (l : Language) :
    (markedLines platform reference l.id table).map (·.2) =
      (render platform reference table l).document.lines := by
  rw [markedLines, List.map_filterMap, render, List.filterMap_map]
  refine List.filterMap_congr fun p _ => ?_
  rw [Option.map_map]
  exact Option.map_id'

/-- A section comment adds the same to every document, but for the name of the language in the
error that it may add. -/
theorem contribution_header {p : Phrase} (header : p.isHeader = true) (platform : Platform)
    (reference language : Text) :
    contribution platform reference language p =
      match (p.value? reference).filter (!·.isEmpty) with
      | none => .nothing
      | some text =>
        match Format.comment platform text with
        | .ok (some line) => .line line
        | .ok none => .nothing
        | .error fault => .trouble (.inexpressible p.row language fault) := by
  have keyed : ¬ p.key.isEmpty = true := by
    intro empty
    rw [Phrase.isHeader, List.isEmpty_iff.1 empty] at header
    exact absurd header (by decide)
  have value : valueIn? reference language p = (p.value? reference).filter (!·.isEmpty) := by
    rw [valueIn?, if_pos header]
  have line (text : Text) : Format.line platform p.key text = Format.comment platform text :=
    if_pos header
  rw [contribution, if_neg keyed, value]
  cases (p.value? reference).filter (!·.isEmpty) with
  | none => rfl
  | some text =>
    rcases made : Format.comment platform text with fault | _ | written
    all_goals simp only [line, made]

theorem commentLines_eq (platform : Platform) (reference language : Text) (table : Table) :
    commentLines platform reference language table = table.comments platform reference := by
  rw [commentLines, markedLines, List.filter_filterMap, List.map_filterMap, Table.comments,
    Table.headers, List.filterMap_filter]
  refine List.filterMap_congr fun p _ => ?_
  cases header : p.isHeader with
  | false => cases (contribution platform reference language p).line? <;> rfl
  | true =>
    rw [if_pos rfl, contribution_header header]
    cases (p.value? reference).filter (!·.isEmpty) with
    | none => rfl
    | some text =>
      dsimp only [Option.bind_some]
      rcases Format.comment platform text with fault | _ | line <;> rfl

/-- What is found wrong with a row is what is found wrong with its phrase. -/
theorem diagnostics_at_row {table : Table} (ascending : table.Pairwise (·.row < ·.row))
    {platform : Platform} {reference : Text} {l : Language} {p : Phrase} (mem : p ∈ table)
    {d : Diagnostic} (found : (contribution platform reference l.id p).diagnostic? = some d) :
    (render platform reference table l).diagnostics.filter (·.row == some p.row) = [d] := by
  have listed : d ∈ (render platform reference table l).diagnostics :=
    List.mem_filterMap.2 ⟨_, List.mem_map_of_mem mem, found⟩
  refine filter_eq_singleton listed (beq_iff_eq.2 (diagnostic?_contribution found).1) ?_
  have order := (inRowOrder_render ascending platform reference l).1.ascending
  refine (List.pairwise_filterMap.1 order).imp ?_
  rintro e f apart ⟨first, second⟩
  exact Nat.lt_irrefl _ (apart _ (eq_of_beq first) _ (eq_of_beq second))

end Document

/-- A rendered document has the section comments of its table among its lines, each where its phrase
stands in the table, and one error for each that cannot be written. -/
structure Rendered.Commented (platform : Platform) (reference : Text) (table : Table)
    (r : Rendered) : Prop where
  lines : r.document.lines =
    (Document.markedLines platform reference r.document.language table).map (·.2)
  comments : Document.commentLines platform reference r.document.language table =
    table.comments platform reference
  rejected : ∀ p ∈ table, p.isHeader = true → ∀ text, p.value? reference = some text → text ≠ [] →
    ∀ fault, Format.comment platform text = .error fault →
      r.diagnostics.filter (·.row == some p.row) =
        [.inexpressible p.row r.document.language fault]

theorem Document.commented_render {table : Table} (ascending : table.Pairwise (·.row < ·.row))
    (platform : Platform) (reference : Text) (l : Language) :
    (render platform reference table l).Commented platform reference table := by
  constructor
  case lines => exact (map_markedLines platform reference table l).symm
  case comments => exact commentLines_eq platform reference l.id table
  case rejected =>
    intro p mem header text given filled fault refused
    refine diagnostics_at_row ascending mem ?_
    have kept : (p.value? reference).filter (!·.isEmpty) = some text := by
      simp [given, filled]
    rw [contribution_header header, kept]
    dsimp only
    rw [refused]
    rfl

namespace Table

theorem comments_of_undeclared {options : TableOptions} {languages : List Language}
    (distinct : (languages.map (·.id)).Nodup) {rows : List (Except Problem Row)}
    {events : List Event} {table : Table}
    (made : ofRows options languages rows = (events, .ok table)) (platform : Platform)
    {reference : Text} (undeclared : reference ∉ languages.map (·.id)) :
    table.comments platform reference = [] := by
  rw [comments, List.filterMap_eq_nil_iff]
  intro p mem
  obtain ⟨number, row, rfl⟩ := mem_ofRows made (List.mem_of_mem_filter mem)
  have missing : languages.find? (·.id == reference) = none := by
    rw [List.find?_eq_none]
    intro l declared same
    exact undeclared (List.mem_map.2 ⟨l, declared, eq_of_beq same⟩)
  rw [value?_phraseOf distinct, missing]
  rfl

/-- Of all that is recorded for a finished table, only the warning about the reference language
points at no row. -/
theorem rowless_ofRows {options : TableOptions} {languages : List Language}
    {rows : List (Except Problem Row)} {events : List Event} {table : Table}
    (made : ofRows options languages rows = (events, .ok table)) :
    (diagnosticsOf events).filter (·.row.isNone) =
      if table.any (·.isHeader) && !languages.any (·.id == options.reference) then
        [.undeclaredReference options.reference]
      else [] := by
  obtain ⟨cells, -, -, rfl⟩ := ofRows_eq_ok made
  have located : (diagnosticsOf ((fatesFrom options languages 0 cells).flatMap
      fun f => eventsOf options f.1 f.2)).filter (·.row.isNone) = [] := by
    rw [diagnosticsOf, List.filterMap_flatMap, List.filter_flatMap, List.flatMap_eq_nil_iff]
    rintro ⟨number, f⟩ _
    rcases diagnosticsOf_eventsOf options number f with silent | ⟨message, warned⟩
    · exact congrArg _ silent
    · exact congrArg _ warned
  rw [diagnosticsOf_append, List.filter_append, located, referenceEvents]
  split <;> rfl

end Table

namespace Session

/-- **Section comments are the same in every document.** Whatever a session was used for before,
however it is set up to render the table it has prepared: the lines that section comments add are in
each document the texts of the reference language, as far as they can be written, and none if that
language is not declared. These documents are handed out, and what is wrong with them is recorded.
Of a language that is not declared a preparation warns once, if there are section comments. -/
theorem section_comments_agree {platform : Platform} {languages : List Language} {fresh s : Session}
    (made : Session.new platform languages = .ok fresh) (calls : List Call) {bytes : Bytes}
    {table : Table} (prepared : (fresh.after calls).prepare bytes = (s, .ok table)) :
    (∀ options : Options,
      let session := { s with options := options }
      let documents := session.rendered table
      documents.map (·.document.language) = languages.map (·.id) ∧
      (∀ r ∈ documents, r.Commented platform options.reference table) ∧
      (session.render table).2 = documents.map (·.document) ∧
      (session.render table).1.diagnostics =
        s.diagnostics ++ documents.flatMap (·.diagnostics) ∧
      (options.reference ∉ languages.map (·.id) →
        table.comments platform options.reference = [])) ∧
    (∀ reference, table.comments .web reference = []) ∧
    s.diagnostics.filter (·.row.isNone) =
      if table.any (·.isHeader) ∧ s.options.reference ∉ languages.map (·.id) then
        [.undeclaredReference s.options.reference]
      else [] := by
  obtain ⟨rfl, distinct⟩ := new_eq_ok made
  have same : (Session.after { platform := platform, languages := languages } calls).platform =
      platform := congrArg (·.1) (declared_after _ calls)
  have ids := ids_after { platform := platform, languages := languages } calls
  generalize Session.after { platform := platform, languages := languages } calls = earlier
    at prepared same ids
  subst same
  have ascending := ascending_of_prepare (congrArg Prod.snd prepared)
  obtain ⟨sheet, column, events, -, -, rows, -, rfl⟩ := prepare_eq_ok prepared
  have bound : (earlier.languages.map (·.bind sheet.header)).map (·.id) = languages.map (·.id) := by
    rw [← ids, List.map_map]
    rfl
  refine ⟨fun options => ⟨?names, ?commented, rfl, diagnostics_render _ table, ?undeclared⟩,
    fun reference => Table.comments_web reference table, ?warned⟩
  case names =>
    rw [← bound, rendered, Document.renderAll, List.map_map]
    rfl
  case commented =>
    intro r mem
    obtain ⟨l, -, rfl⟩ := List.mem_map.1 mem
    exact Document.commented_render ascending earlier.platform options.reference l
  case undeclared =>
    rw [← bound]
    exact Table.comments_of_undeclared (bound ▸ distinct) rows earlier.platform
  case warned =>
    have told := Table.rowless_ofRows rows
    simp only [diagnostics, diagnosticsOf_append, ← bound]
    rw [List.filter_append, told]
    simp [diagnosticsOf, tableOptions]

/-- Comments in any letter case among other rows, two of them alike and one with dashes that an
Android comment must not have; the sheet is prepared for a reference language that is not declared
and then rendered for one that is. -/
theorem section_comments_agree_among_rows :
    let languages : List Language :=
      [{ id := "en".toList, destination := "en.xml".toList },
        { id := "fr".toList, destination := "fr.xml".toList }]
    let calls : List Call := [.configure { reference := "de".toList }]
    let bytes := Utf8.encode <| String.toList
      "key,en,fr\nHeader,Top,Haut\nhi,Hi,Salut\nHEADER,a--b,Milieu\n,Y,\nheader,,Bas\nheader,Top,\n"
    ∃ (fresh s : Session) (table : Table), Session.new .android languages = .ok fresh ∧
      (fresh.after calls).prepare bytes = (s, .ok table) ∧
      let documents := { s with options := {} }.rendered table
      documents.map (·.document.language) = ["en".toList, "fr".toList] ∧
      (∀ r ∈ documents, r.Commented .android "en".toList table) ∧
      table.comments .android "en".toList =
        ["\n    <!-- Top -->".toList, "\n    <!-- Top -->".toList] ∧
      table.comments .android "de".toList = [] ∧
      s.diagnostics.filter (·.row.isNone) = [.undeclaredReference "de".toList] := by
  intro languages calls bytes
  let fresh : Session := { platform := .android, languages := languages }
  have made : Session.new .android languages = .ok fresh := rfl
  have handed : ∃ table ∈ ((fresh.after calls).prepare bytes).2.toOption,
      table.any (·.isHeader) = true ∧ table.comments .android "en".toList =
        ["\n    <!-- Top -->".toList, "\n    <!-- Top -->".toList] := by decide +kernel
  obtain ⟨s, table, prepared, headed, comments⟩ := exists_prepared handed
  obtain ⟨rendered, -, warned⟩ := section_comments_agree made calls prepared
  obtain ⟨names, commented, -⟩ := rendered {}
  obtain ⟨-, -, -, -, missing⟩ := rendered { reference := "de".toList }
  have undeclared := missing (by decide)
  have reference : s.options.reference = "de".toList := by
    obtain ⟨_, _, _, _, _, _, _, rfl⟩ := prepare_eq_ok prepared
    rfl
  rw [if_pos ⟨headed, reference ▸ (by decide)⟩, reference] at warned
  exact ⟨fresh, s, table, made, prepared, names, commented, comments, undeclared, warned⟩

end Session

end Phrasebook

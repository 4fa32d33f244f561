import Phrasebook.Proofs.RowByRow

/-!
# Further languages

Which rows are kept, which columns are bound and which keys are checked depends on all declared
languages, but the document of a language does not. A view holds what a document is made from
besides the rows and its own name, and of the languages it holds no more than the one of the section
comments. Two runs over one sheet with the same view make the same document
(`further_languages_keep_documents`), whatever other languages they declare.
-/

namespace Phrasebook

/-- What the document of a language shows of a run, apart from the rows. -/
structure View where
  platform : Platform
  filter : Option PlatformFilter
  header : Row
  /-- The language of the section comments. -/
  reference : Text
  /-- Whether that language is declared. -/
  commented : Bool

namespace View

/-- The text of a row in the column that bears a name. -/
def textUnder (v : View) (name : Text) (row : Row) : Option Text :=
  ((columnWhere (· == name) v.header).bind (row[·]?)).filter (!·.isEmpty)

def text? (v : View) (name : Text) (row : Row) : Option Text :=
  if isHeaderKey (Table.keyOf row) then
    if v.commented then v.textUnder v.reference row else none
  else v.textUnder name row

def line? (v : View) (name : Text) (row : Row) : Option Text :=
  if v.filter.any (!·.accepts row) then none
  else if (Table.keyOf row).isEmpty then none
  else (v.text? name row).bind fun value =>
    (Format.line v.platform (Table.keyOf row) value).toOption.join

def document (v : View) (rows : List Row) (l : Language) : Document :=
  { language := l.id, destination := l.destination, lines := rows.filterMap (v.line? l.id) }

end View

def Walk.view (w : Walk) (header : Row) : View :=
  { platform := w.platform
    filter := w.filter
    header := header
    reference := w.options.reference
    commented := w.languages.any (·.id == w.options.reference) }

namespace Walk

variable {w : Walk} {header : Row}

/-- In a blank row there is nothing for any document, section comments included. -/
theorem resolved?_of_blank {l : Language} (mem : l ∈ w.languages) {row : Row}
    (h : w.blank row = true) : w.resolved? l row = none := by
  have absent (k : Language) (declared : k ∈ w.languages) : Table.textOf? row k = none := by
    simpa using List.all_eq_true.1 h k declared
  unfold resolved?
  split
  · cases found : w.languages.find? (·.id == w.options.reference) with
    | none => rfl
    | some k => exact absent k (List.mem_of_find?_eq_some found)
  · exact absent l mem

theorem resolved?_eq (bound : ∀ l ∈ w.languages, l.column = columnWhere (· == l.id) header)
    {l : Language} (mem : l ∈ w.languages) (row : Row) :
    w.resolved? l row = (w.view header).text? l.id row := by
  have under (k : Language) (declared : k ∈ w.languages) :
      Table.textOf? row k = (w.view header).textUnder k.id row := by
    rw [Table.textOf?, Table.cellOf, bound k declared]
    rfl
  unfold resolved? View.text?
  split
  · cases found : w.languages.find? (·.id == w.options.reference) with
    | none =>
      have undeclared : ¬ (w.view header).commented = true := by
        simpa [view] using found
      rw [if_neg undeclared]
      rfl
    | some k =>
      have declared : k ∈ w.languages := List.mem_of_find?_eq_some found
      have name : k.id = w.options.reference := by simpa using List.find?_some found
      have commented : (w.view header).commented = true :=
        List.any_eq_true.2 ⟨k, declared, beq_iff_eq.2 name⟩
      rw [if_pos commented, show (w.view header).reference = k.id from name.symm]
      exact under k declared
  · exact under l mem

/-- Rows that are dropped for want of any text have no line to lose. -/
theorem line?_contribution (bound : ∀ l ∈ w.languages, l.column = columnWhere (· == l.id) header)
    {l : Language} (mem : l ∈ w.languages) (number : Nat) (row : Row) :
    (w.contribution l number row).line? = (w.view header).line? l.id row := by
  have filtered : (w.view header).filter.any (!·.accepts row) = w.rejects row := rfl
  have platform : (w.view header).platform = w.platform := rfl
  unfold contribution View.line?
  rw [filtered, platform, ← resolved?_eq bound mem row]
  by_cases rejected : w.rejects row = true
  · rw [if_pos rejected, if_pos rejected]
    rfl
  rw [if_neg rejected, if_neg rejected]
  by_cases blank : w.blank row = true
  · rw [if_pos blank, resolved?_of_blank mem blank]
    exact (ite_self none).symm
  rw [if_neg blank]
  by_cases keyless : (Table.keyOf row).isEmpty = true
  · rw [if_pos keyless, if_pos keyless]
    rfl
  rw [if_neg keyless, if_neg keyless]
  cases w.resolved? l row with
  | none => rfl
  | some value =>
    dsimp only [Option.bind_some]
    rcases Format.line w.platform (Table.keyOf row) value with fault | _ | line <;> rfl

theorem document_rendered (bound : ∀ l ∈ w.languages, l.column = columnWhere (· == l.id) header)
    {l : Language} (mem : l ∈ w.languages) (rows : List Row) :
    (w.rendered rows l).document = (w.view header).document rows l := by
  have lines : (w.contributions l rows).filterMap (·.line?) =
      rows.filterMap ((w.view header).line? l.id) := by
    have step : (fun numbered : Row × Nat =>
        (w.contribution l (rowNumber numbered.2) numbered.1).line?) =
        (w.view header).line? l.id ∘ Prod.fst := by
      funext numbered
      exact line?_contribution bound mem _ _
    calc (w.contributions l rows).filterMap (·.line?)
        = rows.zipIdx.filterMap ((w.view header).line? l.id ∘ Prod.fst) := by
          rw [contributions, List.filterMap_map, ← step]
          rfl
      _ = (rows.zipIdx.map Prod.fst).filterMap ((w.view header).line? l.id) :=
          List.filterMap_map.symm
      _ = rows.filterMap ((w.view header).line? l.id) := by rw [List.zipIdx_map_fst]
  rw [rendered, View.document, lines]

end Walk

/-- A column whose name is a language's is no platforms column, so the languages do not matter for
which one it is. -/
theorem platformsColumn_eq {header : Row} {languages : List Language} {column : Option Nat}
    (plain : ∀ l ∈ languages, isPlatformsCell l.id = false)
    (h : platformsColumn header (languages.map (·.bind header)) = .ok column) :
    column = columnWhere isPlatformsCell header := by
  unfold platformsColumn at h
  split at h
  · cases h
  · obtain rfl := Except.ok.inj h
    cases found : columnWhere isPlatformsCell header with
    | none => rfl
    | some c =>
      have free : (languages.map (·.bind header)).any (·.column == some c) = false := by
        rw [List.any_eq_false]
        intro k declared taken
        obtain ⟨l, mem, rfl⟩ := List.mem_map.1 declared
        obtain ⟨-, ⟨cell, place, named⟩, -⟩ := columnWhere_eq_some.1 (eq_of_beq taken)
        obtain ⟨-, ⟨other, same, platforms⟩, -⟩ := columnWhere_eq_some.1 found
        obtain rfl : cell = other := Option.some.inj (place.symm.trans same)
        rw [eq_of_beq named, plain l mem] at platforms
        cases platforms
      rw [Option.filter_some, free]
      rfl

namespace Session

/-- The one document of a declared language is made from the view of the run. -/
theorem document_of_prepare {platform : Platform} {languages : List Language} {fresh s : Session}
    {options : Options} {bytes : Bytes} {table : Table}
    (made : Session.new platform languages = .ok fresh)
    (plain : ∀ l ∈ languages, isPlatformsCell l.id = false)
    (prepared : { fresh with options := options }.prepare bytes = (s, .ok table))
    {l : Language} (mem : l ∈ languages) :
    ∃ (sheet : Sheet) (rows : List Row), Sheet.read options.sheet bytes = .ok sheet ∧
      sheet.rows = rows.map .ok ∧
      (s.render table).2.filter (·.language == l.id) =
        [((Walk.over platform options (columnWhere isPlatformsCell sheet.header)
          (languages.map (·.bind sheet.header))).view sheet.header).document rows l] := by
  have documents := documents_of_prepare prepared
  obtain ⟨rfl, distinct⟩ := new_eq_ok made
  obtain ⟨sheet, column, events, read, found, hrows, -, -⟩ := prepare_eq_ok prepared
  obtain ⟨rows, cells, kept, -⟩ := Table.ofRows_eq_ok hrows
  obtain rfl := platformsColumn_eq plain found
  let w := Walk.over platform options (columnWhere isPlatformsCell sheet.header)
    (languages.map (·.bind sheet.header))
  have bound : ∀ k ∈ w.languages, k.column = columnWhere (· == k.id) sheet.header := by
    intro k declared
    obtain ⟨l, -, rfl⟩ := List.mem_map.1 declared
    rfl
  have distinct_bound : (w.languages.map (·.id)).Nodup := by
    simpa [w, Walk.over, Function.comp_def, Language.bind] using distinct
  have declared : l.bind sheet.header ∈ w.languages := List.mem_map_of_mem mem
  refine ⟨sheet, rows, read, cells, ?_⟩
  rw [documents, List.filter_map]
  have own : languages.filter ((·.language == l.id) ∘ fun k : Language =>
      (Document.render platform options.reference table k).document) = [l] :=
    Table.filter_declared distinct mem
  rw [own, List.map_singleton]
  have walked := congrArg Rendered.document
    (Walk.rendered_walk (w := w) distinct_bound declared rows)
  rw [Walk.document_rendered bound declared rows] at walked
  rw [kept]
  exact congrArg ([·]) walked

/-- **Further languages leave a document as it is.** Two runs over one sheet with the same options
make the same document of a language that both declare, whatever else they declare, if both or
neither declare the reference language and none of their languages has a name that stands for the
platforms column. -/
theorem further_languages_keep_documents {platform : Platform} {options : Options} {bytes : Bytes}
    {A B : List Language} {a b s t : Session} {tableA tableB : Table}
    (madeA : Session.new platform A = .ok a) (madeB : Session.new platform B = .ok b)
    {l m : Language} (inA : l ∈ A) (inB : m ∈ B) (name : m.id = l.id)
    (destination : m.destination = l.destination)
    (reference : (∃ k ∈ A, k.id = options.reference) ↔ ∃ k ∈ B, k.id = options.reference)
    (plainA : ∀ k ∈ A, isPlatformsCell k.id = false)
    (plainB : ∀ k ∈ B, isPlatformsCell k.id = false)
    (preparedA : { a with options := options }.prepare bytes = (s, .ok tableA))
    (preparedB : { b with options := options }.prepare bytes = (t, .ok tableB)) :
    ∃ d, (s.render tableA).2.filter (·.language == l.id) = [d] ∧
      (t.render tableB).2.filter (·.language == l.id) = [d] := by
  obtain ⟨sheet, rows, read, cells, documentA⟩ := document_of_prepare madeA plainA preparedA inA
  obtain ⟨other, others, reread, recells, documentB⟩ :=
    document_of_prepare madeB plainB preparedB inB
  obtain rfl : sheet = other := Except.ok.inj (read.symm.trans reread)
  obtain rfl : rows = others :=
    List.map_injective_iff.2 (fun _ _ => Except.ok.inj) (cells.symm.trans recells)
  have declared : A.any (·.id == options.reference) = B.any (·.id == options.reference) := by
    rw [Bool.eq_iff_iff, List.any_eq_true, List.any_eq_true]
    simpa using reference
  let walk (languages : List Language) := Walk.over platform options
    (columnWhere isPlatformsCell sheet.header) (languages.map (·.bind sheet.header))
  have commented (languages : List Language) : ((walk languages).view sheet.header).commented =
      languages.any (·.id == options.reference) := List.any_map
  have views : (walk A).view sheet.header = (walk B).view sheet.header :=
    congrArg (View.mk platform _ sheet.header options.reference)
      ((commented A).trans (declared.trans (commented B).symm))
  refine ⟨_, documentA, ?_⟩
  rw [← name, documentB, ← views, View.document, View.document, name, destination]

/-- With a third language more rows are kept, among them one without a key, and the languages stand
in another order. -/
theorem further_languages_keep_documents_of_longer_table :
    let en : Language := { id := "en".toList, destination := "en.xml".toList }
    let fr : Language := { id := "fr".toList, destination := "fr.xml".toList }
    let de : Language := { id := "de".toList, destination := "de.xml".toList }
    let options : Options := { reference := "fr".toList }
    let bytes := Utf8.encode <| String.toList
      "key,de,platforms,en,fr\nHeader,,,,Haut\nhi,,Android,Hi,\nno,Nein,ios,No,\nx,X,,,\n,Y,,,\n"
    ∃ (s t : Session) (tableA tableB : Table),
      Session.prepare { platform := .android, languages := [en, fr], options := options } bytes =
        (s, .ok tableA) ∧ tableA.length = 2 ∧
      Session.prepare { platform := .android, languages := [de, fr, en], options := options } bytes =
        (t, .ok tableB) ∧ tableB.length = 4 ∧
      ∃ d, (s.render tableA).2.filter (·.language == en.id) = [d] ∧
        (t.render tableB).2.filter (·.language == en.id) = [d] := by
  intro en fr de options bytes
  let a : Session := { platform := .android, languages := [en, fr] }
  let b : Session := { platform := .android, languages := [de, fr, en] }
  have handedA : ∃ table ∈ ({ a with options := options }.prepare bytes).2.toOption,
      table.length = 2 := by decide +kernel
  have handedB : ∃ table ∈ ({ b with options := options }.prepare bytes).2.toOption,
      table.length = 4 := by decide +kernel
  obtain ⟨s, tableA, preparedA, two⟩ := exists_prepared handedA
  obtain ⟨t, tableB, preparedB, four⟩ := exists_prepared handedB
  have reference : (∃ k ∈ [en, fr], k.id = options.reference) ↔
      ∃ k ∈ [de, fr, en], k.id = options.reference := by decide
  have madeA : Session.new .android [en, fr] = .ok a := rfl
  have madeB : Session.new .android [de, fr, en] = .ok b := rfl
  exact ⟨s, t, tableA, tableB, preparedA, two, preparedB, four,
    further_languages_keep_documents madeA madeB (by decide) (by decide) rfl rfl reference
      (by decide) (by decide) preparedA preparedB⟩

end Session

end Phrasebook

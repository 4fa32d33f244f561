import Phrasebook.Proofs.AppleText
import Phrasebook.Proofs.Preparing

/-!
# Apple documents read back

The document of a language is read as its comments and statements exactly if the keys and the texts
of its statements are sealed, as they stand in the document. A comment is always whole. A backslash
of the sheet is copied, and may come to stand right before a quote: then that quote does not end the
literal it should, or ends one that should go on. Without a backslash in the sheet it cannot happen.
-/

namespace Phrasebook

namespace Apple

open StringsFile

/-- The item of a phrase, if it has one: a section comment that does not contain its own end, or a
text under a key without quotes. -/
def item? (reference language : Text) (p : Phrase) : Option Item :=
  if p.key.isEmpty then none
  else if p.isHeader then
    (((p.value? reference).map respelled).filter (!Text.contains "*/".toList ·)).map
      fun text => .comment ("  ".toList ++ text ++ [' '])
  else if '"' ∈ p.key then none
  else (p.value? language).map fun value => .statement p.key (respelled value.normalized)

def items (reference language : Text) (table : Table) : List Item :=
  table.filterMap (item? reference language)

def lineOf : Item → Text
  | .comment content => "\n/*".toList ++ content ++ "*/".toList
  | .statement key value =>
    "\"".toList ++ key ++ "\" = \"".toList ++ value ++ "\";".toList

theorem lineOf_comment (content : Text) :
    lineOf (.comment content) = "\n/*".toList ++ content ++ "*/".toList := rfl

/-- No comment of a document contains its own end. -/
theorem reads_commentLine {text : Text} (h : Text.contains "*/".toList text = false) :
    reader.Reads .between (lineOf (.comment ("  ".toList ++ text ++ [' '])) ++ ['\n'])
      [.comment ("  ".toList ++ text ++ [' '])] .between := by
  have absent : ¬ ['*', '/'] <:+: "  ".toList ++ text ++ [' '] := by
    intro inside
    have mark := Substitution.pair_infix_between (by decide) (by decide) inside
    exact Bool.eq_false_iff.1 h (Text.contains_iff.2 mark)
  have newline : reader.Reads .between ['\n'] [] .between := rfl
  exact (newline.append (reads_wholeComment absent)).append newline

theorem reads_statementLine {key value : Text} (h : (Item.statement key value).Intact) :
    reader.Reads .between (lineOf (.statement key value) ++ ['\n']) [.statement key value]
      .between := by
  have newline : reader.Reads .between ['\n'] [] .between := rfl
  exact (reads_statement h).append newline

theorem reads_line {reference language : Text} {table : Table} {item : Item}
    (mem : item ∈ items reference language table) (intact : item.Intact) :
    reader.Reads .between (lineOf item ++ ['\n']) [item] .between := by
  cases item with
  | statement key value => exact reads_statementLine intact
  | comment content =>
    obtain ⟨p, -, made⟩ := List.mem_filterMap.1 mem
    unfold item? at made
    split at made
    · cases made
    split at made
    · obtain ⟨text, kept, same⟩ := Option.map_eq_some_iff.1 made
      obtain rfl := Item.comment.inj same
      exact reads_commentLine (by simpa using (Option.filter_eq_some_iff.1 kept).2)
    split at made
    · cases made
    · obtain ⟨value, -, other⟩ := Option.map_eq_some_iff.1 made
      cases other

/-- The lines of a language are read as its items exactly if the literals of all of them are
sealed. -/
theorem items_frame_iff (reference language : Text) (table : Table) :
    StringsFile.items (frame ((items reference language table).map lineOf)) =
        some (items reference language table) ↔
      ∀ item ∈ items reference language table, item.Intact := by
  constructor
  · exact intact_of_items
  · intro intact
    have lines : reader.Reads .between
        ((items reference language table).flatMap fun item => lineOf item ++ ['\n'])
        ((items reference language table).flatMap fun item => [item]) .between :=
      Scanner.Reads.flatMap fun item mem => reads_line mem (intact item mem)
    have last : reader.finish .between = some [] := rfl
    have whole := Scanner.read_eq lines last
    rw [List.flatMap_singleton', List.append_nil] at whole
    rw [frame, List.flatMap_map]
    exact whole

/-- No key and no text of the language has a backslash. -/
def Slashless (language : Text) (table : Table) : Prop :=
  ∀ p ∈ table, '\\' ∉ p.key ∧ ∀ value ∈ p.value? language, '\\' ∉ value

theorem intact_of_slashless {language : Text} {table : Table} (h : Slashless language table)
    (reference : Text) : ∀ item ∈ items reference language table, item.Intact := by
  intro item mem
  obtain ⟨p, listed, made⟩ := List.mem_filterMap.1 mem
  obtain ⟨key, values⟩ := h p listed
  unfold item? at made
  split at made
  · cases made
  split at made
  · obtain ⟨text, -, rfl⟩ := Option.map_eq_some_iff.1 made
    trivial
  split at made
  · cases made
  · rename_i quote
    obtain ⟨value, given, rfl⟩ := Option.map_eq_some_iff.1 made
    exact ⟨sealed_plain quote key, sealed_respelled (values value given)⟩

end Apple

theorem Format.line_ios_header {key : Text} (header : isHeaderKey key = true) (text : Text) :
    (line .ios key text).toOption.join =
      if Text.contains "*/".toList (Apple.respelled text) then none
      else some (Apple.lineOf (.comment ("  ".toList ++ Apple.respelled text ++ [' ']))) := by
  have first : "\n/*  ".toList = "\n/*".toList ++ "  ".toList := rfl
  have last : " */".toList = [' '] ++ "*/".toList := rfl
  rw [line, if_pos header, comment, Apple.comment, Apple.lineOf_comment, first, last]
  simp only [List.append_assoc]
  split <;> rfl

theorem Format.line_ios {key : Text} (header : isHeaderKey key = false) (value : Text) :
    (line .ios key value).toOption.join =
      if '"' ∈ key then none
      else some (Apple.lineOf (.statement key (Apple.respelled value.normalized))) := by
  rw [line, if_neg (Bool.eq_false_iff.1 header), string, Apple.string]
  split <;> rfl

/-- A phrase adds the line of its item to a document for iOS, and nothing if it has none. -/
theorem Document.line?_contribution_ios {p : Phrase}
    (full : ∀ id text, p.value? id = some text → text.isEmpty = false) (reference language : Text) :
    (contribution .ios reference language p).line? =
      (Apple.item? reference language p).map Apple.lineOf := by
  rw [line?_contribution full, Apple.item?]
  cases p.key.isEmpty
  · cases header : p.isHeader
    · simp only [Format.line_ios header, Bool.false_eq_true, if_false]
      by_cases quote : '"' ∈ p.key
      · simp only [quote, if_true]
        cases p.value? language <;> rfl
      · simp only [quote, if_false]
        cases p.value? language <;> rfl
    · simp only [Format.line_ios_header header, Bool.false_eq_true, if_false, if_true]
      cases p.value? reference with
      | none => rfl
      | some text =>
        rw [Option.bind_some, Option.map_some, Option.filter_some]
        cases Text.contains "*/".toList (Apple.respelled text) <;> rfl
  · rfl

/-- **Documents for iOS are read back exactly if their literals are sealed.** There is one document
for each declared language, in their order, with one line for each item of the language. All
literals are sealed if the keys and the texts of the language have no backslash. -/
theorem ios_documents_read_iff_sealed {s s' : Session} {bytes : Bytes} {table : Table}
    (ios : s.platform = .ios) (prepared : s.prepare bytes = (s', .ok table)) :
    (s'.render table).2.map (·.language) = s.languages.map (·.id) ∧
    ∀ d ∈ (s'.render table).2,
      d.lines = (Apple.items s.options.reference d.language table).map Apple.lineOf ∧
      (StringsFile.items (d.text .ios) = some (Apple.items s.options.reference d.language table) ↔
        ∀ item ∈ Apple.items s.options.reference d.language table, item.Intact) ∧
      (Apple.Slashless d.language table →
        ∀ item ∈ Apple.items s.options.reference d.language table, item.Intact) := by
  refine Session.forall_documents prepared fun l _ => ?_
  have lines : (Document.render s.platform s.options.reference table l).document.lines =
      (Apple.items s.options.reference l.id table).map Apple.lineOf := by
    rw [ios]
    exact Document.lines_render fun p mem =>
      Document.line?_contribution_ios (Session.value?_isEmpty_of_prepare prepared mem) _ _
  refine ⟨lines, ?_, fun slashless => Apple.intact_of_slashless slashless s.options.reference⟩
  rw [Document.text, lines]
  exact Apple.items_frame_iff s.options.reference l.id table

/-- Backslashes that are not in the way: an escape of the sheet, and one for each quote. -/
theorem ios_documents_read_iff_sealed_escapes :
    let s : Session :=
      { platform := .ios, languages := [{ id := "en".toList, destination := "en.strings".toList }] }
    let bytes := Utf8.encode <| String.toList
      "key,en\nHeader,1 * 2 / 3\nk,\"\"\"%s\"\"\\n<html>\"\n\"q\"\"\",no\n"
    s.platform = .ios ∧ ∃ (s' : Session) (table : Table),
      s.prepare bytes = (s', .ok table) ∧
      Apple.items "en".toList "en".toList table =
        [.comment "  1 * 2 / 3 ".toList, .statement ['k'] "\\\"%@\\\"\\n".toList] ∧
      (s'.render table).2.map (·.language) = ["en".toList] ∧
      ∀ d ∈ (s'.render table).2,
        StringsFile.items (d.text .ios) =
          some [.comment "  1 * 2 / 3 ".toList, .statement ['k'] "\\\"%@\\\"\\n".toList] := by
  intro s bytes
  have handed : ∃ table ∈ (s.prepare bytes).2.toOption,
      Apple.items "en".toList "en".toList table =
        [.comment "  1 * 2 / 3 ".toList, .statement ['k'] "\\\"%@\\\"\\n".toList] := by
    decide +kernel
  obtain ⟨s', table, prepared, two⟩ := Session.exists_prepared handed
  obtain ⟨languages, documents⟩ := ios_documents_read_iff_sealed rfl prepared
  refine ⟨rfl, s', table, prepared, two, languages, ?_⟩
  intro d mem
  obtain ⟨-, read, -⟩ := documents d mem
  have declared : d.language ∈ (s'.render table).2.map (·.language) := List.mem_map_of_mem mem
  rw [languages] at declared
  have only : d.language = "en".toList := List.mem_singleton.1 declared
  have same : Apple.items s.options.reference d.language table =
      [.comment "  1 * 2 / 3 ".toList, .statement ['k'] "\\\"%@\\\"\\n".toList] := by
    rw [only]
    exact two
  rw [same] at read
  exact read.2 (by decide +kernel)

/-- A text that ends in a backslash leaves its literal open. -/
theorem ios_document_left_open :
    let s : Session :=
      { platform := .ios, languages := [{ id := "en".toList, destination := "en.strings".toList }] }
    let bytes := Utf8.encode "key,en\nk,a\\\n".toList
    ∃ (s' : Session) (table : Table), s.prepare bytes = (s', .ok table) ∧
      (s'.render table).2.map (·.text .ios) = ["\"k\" = \"a\\\";\n".toList] ∧
      ∀ d ∈ (s'.render table).2, StringsFile.items (d.text .ios) = none := by
  intro s bytes
  have handed : ∃ table ∈ (s.prepare bytes).2.toOption,
      (s.languages.map fun l => (Document.render .ios "en".toList table l).document).map
        (·.text .ios) = ["\"k\" = \"a\\\";\n".toList] := by decide +kernel
  obtain ⟨s', table, prepared, written⟩ := Session.exists_prepared handed
  have texts : (s'.render table).2.map (·.text .ios) = ["\"k\" = \"a\\\";\n".toList] := by
    rw [Session.documents_of_prepare prepared]
    exact written
  refine ⟨s', table, prepared, texts, ?_⟩
  intro d mem
  have text : d.text .ios ∈ (s'.render table).2.map (·.text .ios) := List.mem_map_of_mem mem
  rw [texts] at text
  rw [List.mem_singleton.1 text]
  decide +kernel

end Phrasebook

import Phrasebook.Proofs.AndroidText
import Phrasebook.Proofs.Preparing
import Phrasebook.Proofs.Xml

namespace Phrasebook

namespace Android

inductive Entry
  | comment (text : Text)
  /-- A key with its normalized value. -/
  | element (name value : Text)
deriving Repr, DecidableEq

/-- The entry of a phrase, if it has one: a section comment without two dashes in a row, or a text
under a key that can be a name. -/
def entryOf? (reference language : Text) (p : Phrase) : Option Entry :=
  if p.key.isEmpty then none
  else if p.isHeader then
    ((p.value? reference).filter (!Text.contains "--".toList ·)).map .comment
  else if p.key.any breaksName then none
  else (p.value? language).map fun value => .element p.key value.normalized

def entries (reference language : Text) (table : Table) : List Entry :=
  table.filterMap (entryOf? reference language)

namespace Entry

def line : Entry → Text
  | .comment text => "\n    <!-- ".toList ++ text ++ " -->".toList
  | .element name value =>
    "    <string name=\"".toList ++ name ++ "\">".toList ++ escape value ++ "</string>".toList

theorem line_comment (text : Text) :
    (comment text).line = "\n    <!-- ".toList ++ text ++ " -->".toList := rfl

theorem line_element (name value : Text) :
    (element name value).line =
      "    <string name=\"".toList ++ name ++ "\">".toList ++ escape value ++ "</string>".toList :=
  rfl

def tokens : Entry → List Xml.Token
  | .comment text => [.text "\n\n    ".toList, .comment ([' '] ++ text ++ [' '])]
  | .element name value =>
    [.text "\n    ".toList, .startTag "string".toList [("name".toList, name)]]
      ++ Xml.textTokens (escape value) ++ [.endTag "string".toList]

/-- What keeps an entry from ending early. -/
def Closed : Entry → Prop
  | .comment text => Text.contains "--".toList text = false
  | .element name value => '"' ∉ name ∧ Markup.present value = false

end Entry

def documentTokens (entries : List Entry) : List Xml.Token :=
  [.declaration "xml version=\"1.0\" encoding=\"utf-8\"".toList, .text ['\n'],
      .startTag "resources".toList []]
    ++ entries.flatMap Entry.tokens
    ++ [.text ['\n'], .endTag "resources".toList, .text ['\n']]

open Xml

theorem dashes_between_spaces {text : Text} (h : Text.contains "--".toList text = false) :
    ¬ ['-', '-'] <:+: [' '] ++ text ++ [' '] := by
  intro inside
  have dashes := Substitution.pair_infix_between (by decide) (by decide) inside
  exact Bool.eq_false_iff.1 h (Text.contains_iff.2 dashes)

theorem reads_commentLine {text : Text} (h : (Entry.comment text).Closed) :
    tokenizer.Reads (.text ['\n']) ((Entry.comment text).line ++ ['\n']) (Entry.comment text).tokens
      (.text ['\n']) := by
  have opened : tokenizer.Reads (.text ['\n']) "\n    <!--".toList [.text "\n\n    ".toList]
      (.comment []) := by decide
  have inner : tokenizer.Reads (.comment []) ([' '] ++ text ++ [' ']) []
      (.comment (([' '] ++ text ++ [' ']).reverse ++ [])) :=
    reads_comment (dashes_between_spaces h)
  have newline : tokenizer.Reads (.text []) ['\n'] [] (.text ['\n']) := rfl
  have whole := ((opened.append inner).append (reads_commentEnd _)).append newline
  have first : "\n    <!-- ".toList = "\n    <!--".toList ++ [' '] := rfl
  have last : " -->".toList = [' '] ++ "-->".toList := rfl
  rw [Entry.line_comment, first, last]
  simpa only [Entry.tokens, List.append_assoc, List.append_nil, List.nil_append, List.cons_append,
    List.reverse_reverse] using whole

theorem tagToken?_string {name : Text} (quote : '"' ∉ name) :
    tagToken? ("string name=\"".toList ++ name ++ ['"']) =
      some (.startTag "string".toList [("name".toList, name)]) := by
  have quoted : tagToken? ("string name=\"".toList ++ name ++ ['"']) =
      (attributesFrom (.value "name".toList []) (name ++ ['"'])).map
        (.startTag "string".toList ·) := rfl
  rw [quoted, attributesFrom_value _ _ _ _ quote]
  rfl

theorem reads_elementLine {name value : Text} (h : (Entry.element name value).Closed) :
    tokenizer.Reads (.text ['\n']) ((Entry.element name value).line ++ ['\n'])
      (Entry.element name value).tokens (.text ['\n']) := by
  obtain ⟨quote, plain⟩ := h
  let tag := name.reverse ++ "string name=\"".toList.reverse
  have opened : tokenizer.Reads (.text ['\n']) "    <string name=\"".toList [.text "\n    ".toList]
      (.tag "string name=\"".toList.reverse true) := by decide
  have named : tokenizer.Reads (.tag "string name=\"".toList.reverse true) name []
      (.tag tag true) :=
    reads_quoted quote _
  have closing : tokenizer.Reads (.tag tag true) ['"'] [] (.tag ('"' :: tag) false) := rfl
  have token : tagToken? ('"' :: tag).reverse =
      some (.startTag "string".toList [("name".toList, name)]) := by
    rw [List.reverse_cons, List.reverse_append, List.reverse_reverse, List.reverse_reverse]
    exact tagToken?_string quote
  have content : tokenizer.Reads (.text []) (escape value) []
      (.text ((escape value).reverse ++ [])) :=
    reads_text (lt_not_mem_escape plain) []
  have ended : ∀ read, tokenizer.Reads (.text read) "</string>\n".toList
      (textTokens read.reverse ++ [.endTag "string".toList]) (.text ['\n']) := fun _ => rfl
  have whole := ((((opened.append named).append closing).append (reads_tagEnd token)).append
    content).append (ended _)
  rw [Entry.line_element]
  simpa [Entry.tokens] using whole

theorem reads_line {e : Entry} (closed : e.Closed) :
    tokenizer.Reads (.text ['\n']) (e.line ++ ['\n']) e.tokens (.text ['\n']) := by
  cases e with
  | comment text => exact reads_commentLine closed
  | element name value => exact reads_elementLine closed

theorem tokens_frame {entries : List Entry} (closed : ∀ e ∈ entries, e.Closed) :
    tokens (frame (entries.map Entry.line)) = some (documentTokens entries) := by
  have declared : tokenizer.Reads (.text [])
      "<?xml version=\"1.0\" encoding=\"utf-8\"?>\n<resources>\n".toList
      [.declaration "xml version=\"1.0\" encoding=\"utf-8\"".toList, .text ['\n'],
        .startTag "resources".toList []] (.text ['\n']) := by decide +kernel
  have ended : tokenizer.Reads (.text ['\n']) "</resources>\n".toList
      [.text ['\n'], .endTag "resources".toList] (.text ['\n']) := by decide +kernel
  have lines : tokenizer.Reads (.text ['\n']) ((entries.map Entry.line).flatMap (· ++ ['\n']))
      (entries.flatMap Entry.tokens) (.text ['\n']) := by
    rw [List.flatMap_map]
    exact Scanner.Reads.flatMap fun e mem => reads_line (closed e mem)
  have last : tokenizer.finish (.text ['\n']) = some [.text ['\n']] := rfl
  have whole := Scanner.read_eq ((declared.append lines).append ended) last
  rw [List.append_assoc _ _ [Token.text ['\n']]] at whole
  exact whole

/-- In no text of the language does markup begin, section comments apart. -/
def Plain (language : Text) (table : Table) : Prop :=
  ∀ p ∈ table, p.isHeader = false → ∀ value ∈ p.value? language,
    Markup.present value.normalized = false

instance (language : Text) (table : Table) : Decidable (Plain language table) :=
  inferInstanceAs (Decidable (∀ p ∈ table, p.isHeader = false → ∀ value ∈ p.value? language,
    Markup.present value.normalized = false))

theorem closed_of_plain {language : Text} {table : Table} (plain : Plain language table)
    (reference : Text) : ∀ e ∈ entries reference language table, e.Closed := by
  intro e mem
  obtain ⟨p, listed, entry⟩ := List.mem_filterMap.1 mem
  unfold entryOf? at entry
  split at entry
  · cases entry
  · split at entry
    · obtain ⟨text, given, rfl⟩ := Option.map_eq_some_iff.1 entry
      simpa [Entry.Closed] using (Option.filter_eq_some_iff.1 given).2
    · split at entry
      · cases entry
      · rename_i header unbroken
        obtain ⟨value, given, rfl⟩ := Option.map_eq_some_iff.1 entry
        refine ⟨fun quote => unbroken ?_, plain p listed (Bool.eq_false_iff.2 header) value given⟩
        exact List.any_eq_true.2 ⟨'"', quote, rfl⟩

end Android

theorem Format.line_android_header {key : Text} (header : isHeaderKey key = true) (text : Text) :
    (line .android key text).toOption.join =
      if Text.contains "--".toList text then none else some (Android.Entry.comment text).line := by
  rw [line, if_pos header, comment, Android.comment]
  split <;> rfl

theorem Format.line_android {key : Text} (header : isHeaderKey key = false) (value : Text) :
    (line .android key value).toOption.join =
      if key.any Android.breaksName then none
      else some (Android.Entry.element key value.normalized).line := by
  rw [line, if_neg (Bool.eq_false_iff.1 header), string, Android.string]
  split <;> rfl

/-- A phrase adds the line of its entry to a document for Android, and nothing if it has none. -/
theorem Document.line?_contribution_android {p : Phrase}
    (full : ∀ id text, p.value? id = some text → text.isEmpty = false) (reference language : Text) :
    (contribution .android reference language p).line? =
      (Android.entryOf? reference language p).map Android.Entry.line := by
  rw [line?_contribution full, Android.entryOf?]
  cases p.key.isEmpty
  · cases header : p.isHeader
    · simp only [Format.line_android header, Bool.false_eq_true, if_false]
      cases p.key.any Android.breaksName <;> cases p.value? language <;> rfl
    · simp only [Format.line_android_header header, Bool.false_eq_true, if_false, if_true]
      cases p.value? reference with
      | none => rfl
      | some text =>
        rw [Option.bind_some, Option.filter_some]
        cases Text.contains "--".toList text <;> rfl
  · rfl

/-- **Android documents keep their structure.** There is one document for each declared language,
in their order. Where no text of its language has markup, it is read as the entries of the language
and nothing else, and the text of each element resolves to the normalized value with its marks. -/
theorem android_documents_keep_structure {s s' : Session} {bytes : Bytes} {table : Table}
    (android : s.platform = .android) (prepared : s.prepare bytes = (s', .ok table)) :
    (s'.render table).2.map (·.language) = s.languages.map (·.id) ∧
    ∀ d ∈ (s'.render table).2, Android.Plain d.language table →
      d.lines = (Android.entries s.options.reference d.language table).map (·.line) ∧
      Xml.tokens (d.text .android) =
        some (Android.documentTokens (Android.entries s.options.reference d.language table)) ∧
      ∀ name value, .element name value ∈ Android.entries s.options.reference d.language table →
        Xml.resolved (Android.escape value) = Android.marked value := by
  refine Session.forall_documents prepared fun l _ plain => ?_
  have lines : (Document.render s.platform s.options.reference table l).document.lines =
      (Android.entries s.options.reference l.id table).map (·.line) := by
    rw [android]
    exact Document.lines_render fun p mem =>
      Document.line?_contribution_android (Session.value?_isEmpty_of_prepare prepared mem) _ _
  have closed := Android.closed_of_plain plain s.options.reference
  refine ⟨lines, ?_, ?_⟩
  · rw [Document.text, lines]
    exact Android.tokens_frame closed
  · intro name value listed
    exact Android.resolved_escape (closed _ listed).2

/-- A comment that ends in a dash, and a text with what would end an element or a section. -/
theorem android_documents_keep_structure_of_specials :
    let s : Session :=
      { platform := .android, languages := [{ id := "en".toList, destination := "en.xml".toList }] }
    let bytes := Utf8.encode <| String.toList
      "key,en\nHeader,Top -\nk,\"</string> & ]]> it's...\"\na<b,no\n"
    s.platform = .android ∧ ∃ (s' : Session) (table : Table),
      s.prepare bytes = (s', .ok table) ∧ Android.Plain "en".toList table ∧
      (s'.render table).2.map (·.language) = ["en".toList] ∧
      ∀ d ∈ (s'.render table).2,
        d.lines = (Android.entries "en".toList d.language table).map (·.line) ∧
        Xml.tokens (d.text .android) =
          some (Android.documentTokens (Android.entries "en".toList d.language table)) ∧
        ∀ name value, .element name value ∈ Android.entries "en".toList d.language table →
          Xml.resolved (Android.escape value) = Android.marked value := by
  intro s bytes
  have handed : ∃ table ∈ (s.prepare bytes).2.toOption, Android.Plain "en".toList table := by
    decide +kernel
  obtain ⟨s', table, prepared, plain⟩ := Session.exists_prepared handed
  obtain ⟨languages, documents⟩ := android_documents_keep_structure rfl prepared
  refine ⟨rfl, s', table, prepared, plain, languages, ?_⟩
  intro d mem
  have declared : d.language ∈ (s'.render table).2.map (·.language) := List.mem_map_of_mem mem
  rw [languages] at declared
  have only : d.language = "en".toList := List.mem_singleton.1 declared
  exact documents d mem (by rwa [only])

end Phrasebook

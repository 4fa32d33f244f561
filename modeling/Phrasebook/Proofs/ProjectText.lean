import Phrasebook.Proofs.ProjectLines
import Phrasebook.Proofs.Trim

namespace Phrasebook.Project

/-- Text of one line: no blanks at its ends and no line feed. -/
structure OneLine (t : Text) : Prop where
  trimmed : t.trim = t
  unbroken : '\n' ∉ t

/-- Text of one line that can be a part of a language line. -/
structure Part (t : Text) : Prop extends OneLine t where
  filled : t ≠ []
  undivided : ',' ∉ t

instance (t : Text) : Decidable (OneLine t) :=
  decidable_of_iff (t.trim = t ∧ '\n' ∉ t) ⟨fun h => ⟨h.1, h.2⟩, fun h => ⟨h.trimmed, h.unbroken⟩⟩

instance (t : Text) : Decidable (Part t) :=
  decidable_of_iff (OneLine t ∧ t ≠ [] ∧ ',' ∉ t)
    ⟨fun h => ⟨h.1, h.2.1, h.2.2⟩, fun h => ⟨h.toOneLine, h.filled, h.undivided⟩⟩

namespace Statement

/-- The statement can be made on a line. -/
def Writable : Statement → Prop
  | .source path => OneLine path ∧ path ≠ [] ∧
    ∀ scheme ∈ ["http://", "https://", "file://"], ¬ scheme.toList <+: path.lower
  | .platform _ => True
  | .reference id => OneLine id
  | .language id path => Part id ∧ Part path

instance : (st : Statement) → Decidable st.Writable
  | .source path => inferInstanceAs (Decidable (OneLine path ∧ path ≠ [] ∧
      ∀ scheme ∈ ["http://", "https://", "file://"], ¬ scheme.toList <+: path.lower))
  | .platform _ => .isTrue trivial
  | .reference id => inferInstanceAs (Decidable (OneLine id))
  | .language id path => inferInstanceAs (Decidable (Part id ∧ Part path))

/-- What can stand for a statement behind the colon. -/
inductive Value : Statement → Text → Prop
  | source {path t : Text} (gaps : Padded path t) : Value (.source path) t
  | file {scheme path t : Text} (small : scheme.lower = "file://".toList)
      (gaps : Padded (scheme ++ path) t) : Value (.source path) t
  | platform {p : Platform} {name t : Text} (small : name.lower = p.name.lower)
      (gaps : Padded name t) : Value (.platform p) t
  | reference {id t : Text} (gaps : Padded id t) : Value (.reference id) t
  | language {id path before after : Text} (id_gaps : Padded id before)
      (path_gaps : Padded path after) : Value (.language id path) (before ++ ',' :: after)

def Writes (st : Statement) (line : Text) : Prop :=
  ∃ directive before value, directive.lower = st.directive ∧ Padded directive before ∧
    Value st value ∧ line = before ++ ':' :: value

theorem directive_solid (st : Statement) :
    st.directive ≠ [] ∧ ':' ∉ st.directive ∧ '#' ∉ st.directive ∧ Solid st.directive := by
  have names : ∀ name ∈ ["url".toList, "platform".toList, "reference".toList, "language".toList],
      name ≠ [] ∧ ':' ∉ name ∧ '#' ∉ name ∧ Solid name := by decide
  apply names
  cases st with
  | source path => exact .head _
  | platform p => exact .tail _ (.head _)
  | reference id => exact .tail _ (.tail _ (.head _))
  | language id path => exact .tail _ (.tail _ (.tail _ (.head _)))

variable {st : Statement} {line directive value : Text}

/-- A line that makes a statement is read as its directive with its value. -/
theorem Writes.ofLine?_eq_ofDirective? (written : Writes st line) :
    ∃ directive value, directive.lower = st.directive ∧ Value st value ∧
      speaks line.trim = true ∧ ofLine? line.trim = ofDirective? directive value.trim := by
  obtain ⟨directive, before, value, small, gaps, stands, rfl⟩ := written
  refine ⟨directive, value, small, stands, ?_⟩
  obtain ⟨name_filled, no_colon, no_hash, name_solid⟩ := st.directive_solid
  have solid := name_solid.of_lower small
  have filled : directive ≠ [] := by
    rintro rfl
    exact name_filled small.symm
  obtain ⟨first, rest, rfl⟩ := List.exists_cons_of_ne_nil filled
  obtain ⟨after, blanks, start⟩ := gaps.trimStart_eq (solid first List.mem_cons_self)
  have kept : (before ++ ':' :: value).trim = (first :: rest ++ after) ++ ':' :: value.trimEnd := by
    rw [← start]
    exact Text.trim_append_cons (by decide)
  have apart : ':' ∉ first :: rest ++ after := by
    rw [List.mem_append]
    rintro (inside | inside)
    · exact not_mem_of_lower small no_colon (by decide) inside
    · exact absurd (blanks _ inside).1 (by decide)
  rw [kept]
  constructor
  · apply speaks_cons
    rintro rfl
    exact not_mem_of_lower small no_hash (by decide) List.mem_cons_self
  · rw [ofLine?, Text.cut_append apart]
    change ofDirective? (Text.trim (first :: rest ++ after)) value.trimEnd.trim = _
    rw [Text.trim_trimEnd, ← start, Text.trim_trimStart, gaps.trim_eq, Text.trim_of_solid solid]

end Statement

/-! ## Values -/

theorem sourcePath_of_no_scheme {path : Path} (filled : path ≠ [])
    (schemes : ∀ scheme ∈ ["http://", "https://", "file://"], ¬ scheme.toList <+: path.lower) :
    sourcePath path = .ok path := by
  have none (scheme : String) (among : scheme ∈ ["http://", "https://", "file://"]) :
      hasScheme scheme.toList path = false := by
    rw [hasScheme, Bool.eq_false_iff, ne_eq, List.isPrefixOf_iff_prefix]
    exact schemes scheme among
  unfold sourcePath
  dsimp only
  rw [none "http://" (by decide), none "https://" (by decide), none "file://" (by decide)]
  simp [filled]

theorem sourcePath_of_file {scheme path : Text} (small : scheme.lower = "file://".toList)
    (filled : path ≠ []) : sourcePath (scheme ++ path) = .ok path := by
  have beginning : (scheme ++ path).lower = "file://".toList ++ path.lower := by
    rw [← small]
    exact List.map_append
  have length : scheme.length = "file://".toList.length := by
    rw [← small]
    exact (List.length_map _).symm
  have http : hasScheme "http://".toList (scheme ++ path) = false := by
    rw [hasScheme, beginning]
    rfl
  have https : hasScheme "https://".toList (scheme ++ path) = false := by
    rw [hasScheme, beginning]
    rfl
  have file : hasScheme "file://".toList (scheme ++ path) = true := by
    rw [hasScheme, beginning, List.isPrefixOf_iff_prefix]
    exact List.prefix_append _ _
  unfold sourcePath
  dsimp only
  rw [http, https, file, ← length]
  simp [filled]

theorem file_solid {scheme : Text} (small : scheme.lower = "file://".toList) : Solid scheme := by
  apply Solid.of_lower _ small
  decide

theorem name_solid {p : Platform} {name : Text} (small : name.lower = p.name.lower) :
    Solid name := by
  apply Solid.of_lower _ small
  cases p <;> decide

theorem ofName?_of_lower {p : Platform} {name : Text} (small : name.lower = p.name.lower) :
    Platform.ofName? name = some p := by
  unfold Platform.ofName? Platform.canonical
  rw [Text.trim_of_solid (name_solid small), small]
  cases p <;> decide

theorem languageParts?_of_padded {id path before after : Text} (id_part : Part id)
    (path_part : Part path) (id_gaps : Padded id before) (path_gaps : Padded path after) :
    languageParts? (Text.trim (before ++ ',' :: after)) = some (id, path) := by
  have apart : ',' ∉ before.trimStart := by
    intro inside
    rcases id_gaps.of_mem ((List.dropWhile_suffix _).subset inside) with within | blank
    · exact id_part.undivided within
    · exact absurd blank.1 (by decide)
  rw [Text.trim_append_cons (by decide), languageParts?, Text.cut_append apart]
  dsimp only
  rw [Text.trim_trimStart, Text.trim_trimEnd, id_gaps.trim_eq, path_gaps.trim_eq, id_part.trimmed,
    path_part.trimmed]
  simp [id_part.filled, path_part.filled, path_part.undivided]

namespace Statement

variable {st : Statement} {line directive value : Text}

theorem Value.ofDirective?_eq (stands : Value st value) (writable : st.Writable)
    (small : directive.lower = st.directive) : ofDirective? directive value.trim = some st := by
  unfold ofDirective?
  dsimp only
  rw [small]
  cases stands with
  | source gaps =>
    obtain ⟨line, filled, schemes⟩ := writable
    change (sourcePath _).toOption.map _ = _
    rw [gaps.trim_eq, line.trimmed, sourcePath_of_no_scheme filled schemes]
    rfl
  | @file scheme path t file gaps =>
    obtain ⟨line, filled, -⟩ := writable
    have scheme_filled : scheme ≠ [] := by
      rintro rfl
      cases file
    have trimmed : (scheme ++ path).trim = scheme ++ path := by
      rw [Text.trim_solid_append (file_solid file) scheme_filled,
        Text.trimEnd_eq_self line.trimmed]
    change (sourcePath _).toOption.map _ = _
    rw [gaps.trim_eq, trimmed, sourcePath_of_file file filled]
    rfl
  | platform name gaps =>
    change (Platform.ofName? _).map _ = _
    rw [gaps.trim_eq, Text.trim_of_solid (name_solid name), ofName?_of_lower name]
    rfl
  | reference gaps =>
    change some (Statement.reference _) = _
    rw [gaps.trim_eq, OneLine.trimmed writable]
  | language id_gaps path_gaps =>
    change (languageParts? _).map _ = _
    rw [languageParts?_of_padded writable.1 writable.2 id_gaps path_gaps]
    rfl

theorem Value.unbroken (stands : Value st value) (writable : st.Writable) : '\n' ∉ value := by
  cases stands with
  | source gaps => exact gaps.unbroken writable.1.unbroken
  | file small gaps =>
    apply gaps.unbroken
    rw [List.mem_append, not_or]
    exact ⟨(file_solid small).unbroken, writable.1.unbroken⟩
  | platform small gaps => exact gaps.unbroken (name_solid small).unbroken
  | reference gaps => exact gaps.unbroken (OneLine.unbroken writable)
  | language id_gaps path_gaps =>
    simp only [List.mem_append, List.mem_cons, not_or]
    exact ⟨id_gaps.unbroken writable.1.unbroken, by decide,
      path_gaps.unbroken writable.2.unbroken⟩

theorem Writes.unbroken (written : Writes st line) (writable : st.Writable) : '\n' ∉ line := by
  obtain ⟨directive, before, value, small, gaps, stands, rfl⟩ := written
  have solid := st.directive_solid.2.2.2.of_lower small
  simp only [List.mem_append, List.mem_cons, not_or]
  exact ⟨gaps.unbroken solid.unbroken, by decide, stands.unbroken writable⟩

/-- However a statement is written on a line, the line says this statement. -/
theorem Writes.ofLine?_eq (written : Writes st line) (writable : st.Writable) :
    speaks line.trim = true ∧ ofLine? line.trim = some st := by
  obtain ⟨directive, value, small, stands, speaking, read⟩ := written.ofLine?_eq_ofDirective?
  exact ⟨speaking, read.trans (stands.ofDirective?_eq writable small)⟩

end Statement

/-! ## Texts -/

/-- Lines that make statements one after the other, and others among them that say nothing. -/
inductive WriteAll : List Statement → List Text → Prop
  | nil : WriteAll [] []
  | silent {said : List Statement} {line : Text} {texts : List Text} (unbroken : '\n' ∉ line)
      (silent : speaks line.trim = false) (rest : WriteAll said texts) :
      WriteAll said (line :: texts)
  | statement {st : Statement} {said : List Statement} {line : Text} {texts : List Text}
      (written : st.Writes line) (rest : WriteAll said texts) :
      WriteAll (st :: said) (line :: texts)

theorem WriteAll.read {said : List Statement} {texts : List Text} (written : WriteAll said texts)
    (writable : ∀ st ∈ said, st.Writable) :
    (∀ line ∈ texts, '\n' ∉ line) ∧
      (spoken texts).map Statement.ofLine? = said.map some := by
  induction written with
  | nil => exact ⟨nofun, rfl⟩
  | silent unbroken silent rest ih =>
    obtain ⟨others, read⟩ := ih writable
    refine ⟨List.forall_mem_cons.2 ⟨unbroken, others⟩, ?_⟩
    rw [← read]
    simp [spoken, silent]
  | statement written rest ih =>
    rw [List.forall_mem_cons] at writable
    obtain ⟨others, read⟩ := ih writable.2
    obtain ⟨speaking, same⟩ := written.ofLine?_eq writable.1
    refine ⟨List.forall_mem_cons.2 ⟨written.unbroken writable.1, others⟩, ?_⟩
    rw [List.map_cons, ← read, ← same]
    simp [spoken, speaking]

/-- What a project file is written from: a project with paths as they are written. -/
structure Settings where
  source : Path
  platform : Platform
  reference : Option Text
  languages : List (Text × Path)
deriving Repr, DecidableEq

namespace Settings

def project (s : Settings) (base : Path) : Project :=
  { source := base.join s.source
    platform := s.platform
    languages := s.languages.map (languageOf base)
    reference := s.reference }

def statements (s : Settings) : List Statement :=
  .source s.source :: .platform s.platform ::
    (s.reference.toList.map .reference ++ s.languages.map fun (id, path) => .language id path)

/-- The settings can be written: each on a line, and there is a language. -/
structure Writable (s : Settings) : Prop where
  statements : ∀ st ∈ s.statements, st.Writable
  declares : s.languages ≠ []

/-- The text says what has to be said, in any order but that of the languages. -/
def Writes (s : Settings) (text : Text) : Prop :=
  ∃ said texts, said.Perm s.statements ∧ said.filterMap (·.language?) = s.languages ∧
    WriteAll said texts ∧ text = Text.joined ['\n'] texts

theorem language?_statements (s : Settings) :
    s.statements.filterMap (·.language?) = s.languages := by
  simp [statements, Statement.language?, List.filterMap_map]

theorem says_statements {s : Settings} (declares : s.languages ≠ []) (base : Path) :
    (s.project base).Says base s.statements where
  source := by
    simp [statements, project, Statement.source?, List.filterMap_map]
  platform := by
    simp [statements, project, Statement.platform?, List.filterMap_map]
  reference := by
    simp [statements, project, Statement.reference?, List.filterMap_map]
  languages := by
    rw [language?_statements]
    rfl
  declares := by simpa [project] using declares

end Settings

/-- **Written settings are read back.** Let the texts of the settings be such that a line can hold
them: trimmed and without a line feed; source, names and paths of languages not empty, without a
comma in the latter two, and the source without a scheme. Write the settings in any way: each on a
line of its own, with directive, platform and the scheme that the source may be given in any letter
case, with blanks around all parts, the lines in any order but that of the languages, and blank
lines and comments among them. Then the text is read, and what is read are the settings, with the
paths seen from the base. -/
theorem written_settings_read_back {s : Settings} (writable : s.Writable) {text : Text}
    (written : s.Writes text) (base : Path) : parse text base = .ok (s.project base) := by
  obtain ⟨said, texts, same, languages, written, rfl⟩ := written
  have said_writable : ∀ st ∈ said, st.Writable :=
    fun st among => writable.statements st (same.mem_iff.1 among)
  obtain ⟨unbroken, read⟩ := written.read said_writable
  have filled : texts ≠ [] := by
    rintro rfl
    cases written
    cases same.nil_eq
  have whole : lines (Text.joined ['\n'] texts) = spoken texts := by
    rw [lines, Text.joined, List.splitOn_intercalate '\n' unbroken filled]
  rw [parse_eq_ok, whole]
  constructor
  · intro line among
    obtain ⟨st, -, found⟩ := List.mem_map.1 (read ▸ List.mem_map_of_mem among)
    exact Option.isSome_iff_exists.2 ⟨st, found.symm⟩
  · have heard : (spoken texts).filterMap Statement.ofLine? = said := calc
      _ = ((spoken texts).map Statement.ofLine?).filterMap id := by rw [List.filterMap_map]; rfl
      _ = said := by rw [read, List.filterMap_map]; exact List.filterMap_some
    rw [heard]
    apply (Settings.says_statements writable.declares base).of_perm same
    rw [languages, Settings.language?_statements]

/-- A file with a comment, blank lines, a carriage return, blanks of other scripts, capitals in odd
places and an empty reference, in which values contain colons and begin with number signs. -/
theorem written_settings_read_back_of_odd :
    let settings : Settings :=
      { source := "a: #.csv".toList
        platform := .ios
        reference := some []
        languages := [("en".toList, "in:en".toList), ("#f".toList, "o.f".toList)] }
    let texts : List Text :=
      ["# names".toList, "\u3000PlatForm\t:\u00A0IOS \r".toList, [],
        "LANGUAGE:en\u2003,\tin:en".toList, "uRL : FILE://a: #.csv\r".toList, "Reference:".toList,
        "language :\u0085#f , o.f ".toList, []]
    settings.Writable ∧ settings.Writes (Text.joined ['\n'] texts) ∧
      parse (Text.joined ['\n'] texts) "dir".toList = .ok
        { source := "dir/a: #.csv".toList
          platform := .ios
          languages :=
            [{ id := "en".toList, destination := "dir/in:en".toList },
              { id := "#f".toList, destination := "dir/o.f".toList }]
          reference := some [] } := by
  intro settings texts
  have around (before value after : Text) (gaps : Gap before ∧ Gap after) :
      Padded value (before ++ value ++ after) := ⟨before, after, gaps.1, gaps.2, rfl⟩
  have alone (value : Text) : Padded value value := ⟨[], [], nofun, nofun, by simp⟩
  have platform : Statement.Writes (.platform .ios) texts[1] :=
    ⟨_, _, _, by decide, around ['\u3000'] "PlatForm".toList ['\t'] (by decide),
      .platform (by decide) (around ['\u00A0'] "IOS".toList [' ', '\r'] (by decide)), rfl⟩
  have first : Statement.Writes (.language "en".toList "in:en".toList) texts[3] :=
    ⟨_, _, _, by decide, alone "LANGUAGE".toList,
      .language (around [] "en".toList ['\u2003'] (by decide))
        (around ['\t'] "in:en".toList [] (by decide)), rfl⟩
  have source : Statement.Writes (.source "a: #.csv".toList) texts[4] :=
    ⟨_, _, _, by decide, around [] "uRL".toList [' '] (by decide),
      .file (by decide) (around [' '] ("FILE://".toList ++ "a: #.csv".toList) ['\r']
        (by decide)), rfl⟩
  have reference : Statement.Writes (.reference []) texts[5] :=
    ⟨_, _, _, by decide, alone "Reference".toList, .reference (alone []), rfl⟩
  have second : Statement.Writes (.language "#f".toList "o.f".toList) texts[6] :=
    ⟨_, _, _, by decide, around [] "language".toList [' '] (by decide),
      .language (around ['\u0085'] "#f".toList [' '] (by decide))
        (around [' '] "o.f".toList [' '] (by decide)), rfl⟩
  have all : WriteAll [.platform .ios, .language "en".toList "in:en".toList,
      .source "a: #.csv".toList, .reference [], .language "#f".toList "o.f".toList] texts :=
    .silent (by decide) (by decide) <| .statement platform <| .silent (by decide) (by decide) <|
      .statement first <| .statement source <| .statement reference <| .statement second <|
      .silent (by decide) (by decide) .nil
  have writable : settings.Writable := ⟨by decide +kernel, by decide⟩
  have written : settings.Writes (Text.joined ['\n'] texts) :=
    ⟨_, texts, by decide +kernel, rfl, all, rfl⟩
  exact ⟨writable, written, written_settings_read_back writable written _⟩

end Phrasebook.Project

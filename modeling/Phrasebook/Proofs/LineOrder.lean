import Phrasebook.Proofs.ProjectLines

namespace Phrasebook.Project

def directive? (line : Text) : Option Text :=
  (Text.cut ':' line).map fun (directive, _) => directive.trim.lower

/-- Whether a line has the directive of the given name. -/
def gives (name : String) (line : Text) : Bool := directive? line == some name.toList

/-- Both texts have the same lines but for blank lines, comments and blanks around a line, and the
languages stand in the same order. -/
structure Reordered (other text : Text) : Prop where
  lines : (lines other).Perm (lines text)
  languages : (Project.lines other).filter (gives "language") =
    (Project.lines text).filter (gives "language")

theorem Statement.directive_of_ofDirective? {directive value : Text} {st : Statement}
    (said : ofDirective? directive value = some st) : directive.lower = st.directive := by
  unfold ofDirective? at said
  dsimp only at said
  split at said
  · rename_i name
    obtain ⟨path, -, rfl⟩ := Option.map_eq_some_iff.1 said
    exact eq_of_beq name
  split at said
  · rename_i name
    obtain ⟨p, -, rfl⟩ := Option.map_eq_some_iff.1 said
    exact eq_of_beq name
  split at said
  · rename_i name
    obtain rfl := Option.some.inj said
    exact eq_of_beq name
  split at said
  · rename_i name
    obtain ⟨parts, -, rfl⟩ := Option.map_eq_some_iff.1 said
    exact eq_of_beq name
  · cases said

theorem gives_of_ofLine? {line : Text} {st : Statement} (said : Statement.ofLine? line = some st)
    (name : String) : gives name line = (st.directive == name.toList) := by
  obtain ⟨⟨directive, value⟩, parts, said⟩ := Option.bind_eq_some_iff.1 said
  simp [gives, directive?, parts, Statement.directive_of_ofDirective? said]

section

variable {α : Type} {f : Statement → Option α} {name : String} {texts : List Text}

/-- What is said with a directive is in the lines that have it. -/
theorem filterMap_eq_of_directive
    (kind : ∀ st, (f st).isSome = (st.directive == name.toList)) :
    (texts.filterMap Statement.ofLine?).filterMap f =
      ((texts.filter (gives name)).filterMap Statement.ofLine?).filterMap f := by
  simp only [List.filterMap_filterMap, List.filterMap_filter]
  congr
  funext line
  split
  · rfl
  rename_i other
  rw [Option.bind_none, Option.bind_eq_none_iff]
  intro st said
  rw [gives_of_ofLine? said, ← kind] at other
  simpa using other

/-- If every line says something, as much is said with a directive as there are lines that have
it. -/
theorem length_filterMap_of_directive
    (kind : ∀ st, (f st).isSome = (st.directive == name.toList))
    (formed : ∀ line ∈ texts, (Statement.ofLine? line).isSome) :
    ((texts.filterMap Statement.ofLine?).filterMap f).length = texts.countP (gives name) := by
  rw [List.filterMap_filterMap, List.length_filterMap_eq_countP]
  apply List.countP_congr
  intro line among
  obtain ⟨st, said⟩ := Option.isSome_iff_exists.1 (formed line among)
  rw [said, Option.bind_some, kind, gives_of_ofLine? said]

end

theorem isSome_source? (st : Statement) :
    st.source?.isSome = (st.directive == "url".toList) := by cases st <;> rfl

theorem isSome_platform? (st : Statement) :
    st.platform?.isSome = (st.directive == "platform".toList) := by cases st <;> rfl

theorem isSome_reference? (st : Statement) :
    st.reference?.isSome = (st.directive == "reference".toList) := by cases st <;> rfl

theorem isSome_language? (st : Statement) :
    st.language?.isSome = (st.directive == "language".toList) := by cases st <;> rfl

theorem exists_says_iff {base : Path} {said : List Statement} :
    (∃ p : Project, p.Says base said) ↔
      (said.filterMap (·.source?)).length = 1 ∧ (said.filterMap (·.platform?)).length = 1 ∧
      (said.filterMap (·.reference?)).length ≤ 1 ∧ 1 ≤ (said.filterMap (·.language?)).length := by
  constructor
  · rintro ⟨p, source, platform, reference, languages, declares⟩
    refine ⟨by simpa using congrArg List.length source, by rw [platform]; rfl, ?_, ?_⟩
    · rw [reference]
      cases p.reference <;> simp
    · rw [← languages, ne_eq, List.map_eq_nil_iff] at declares
      exact List.length_pos_iff.2 declares
  · rintro ⟨source, platform, reference, languages⟩
    obtain ⟨path, source⟩ := List.length_eq_one_iff.1 source
    obtain ⟨p, platform⟩ := List.length_eq_one_iff.1 platform
    obtain ⟨id, reference⟩ := length_le_one_iff.1 reference
    refine ⟨⟨base.join path, p, _, id⟩, by simp [source], platform, reference, rfl, ?_⟩
    rw [ne_eq, List.map_eq_nil_iff]
    exact List.length_pos_iff.1 languages

theorem Reordered.symm {other text : Text} (same : Reordered other text) :
    Reordered text other :=
  ⟨same.lines.symm, same.languages.symm⟩

theorem Reordered.parse_eq_ok {other text : Text} (same : Reordered other text) {base : Path}
    {p : Project} (parsed : parse text base = .ok p) : parse other base = .ok p := by
  rw [Project.parse_eq_ok] at parsed ⊢
  obtain ⟨formed, told⟩ := parsed
  refine ⟨fun line among => formed line (same.lines.mem_iff.1 among), ?_⟩
  apply told.of_perm (same.lines.filterMap _)
  rw [filterMap_eq_of_directive isSome_language?, same.languages,
    ← filterMap_eq_of_directive isSome_language?]

/-- **The order of the lines does not matter, except among languages.** Texts with the same lines
but for blank lines and comments, in which the languages stand in the same order, are accepted
alike and give the same project. A text is accepted if and only if each line that is neither blank
nor a comment is well formed on its own, source and platform are given exactly once, the reference
once at most and a language once at least. -/
theorem line_order_does_not_matter (base : Path) (text : Text) :
    (∀ other : Text, Reordered other text →
      ∀ p : Project, parse other base = .ok p ↔ parse text base = .ok p) ∧
    ((∃ p, parse text base = .ok p) ↔
      (∀ line ∈ lines text, ∃ st, Statement.ofLine? line = some st) ∧
      (lines text).countP (gives "url") = 1 ∧
      (lines text).countP (gives "platform") = 1 ∧
      (lines text).countP (gives "reference") ≤ 1 ∧
      1 ≤ (lines text).countP (gives "language")) := by
  constructor
  · intro other same p
    exact ⟨same.symm.parse_eq_ok, same.parse_eq_ok⟩
  · simp only [parse_eq_ok, exists_and_left, exists_says_iff, ← Option.isSome_iff_exists]
    apply and_congr_right
    intro formed
    rw [length_filterMap_of_directive isSome_source? formed,
      length_filterMap_of_directive isSome_platform? formed,
      length_filterMap_of_directive isSome_reference? formed,
      length_filterMap_of_directive isSome_language? formed]

/-- The same lines from the last to the first but for the languages, with blanks around two of them,
a comment and blank lines. -/
theorem line_order_does_not_matter_of_shuffled :
    let text :=
      "URL: s.csv\nLanguage: en, e\nPlatform: web\nLanguage: fr, f\nReference: fr".toList
    let other :=
      "Reference: fr\n\n Language: en, e\t\n#\nPlatform: web\n\nLanguage: fr, f\r\nURL: s.csv\n".toList
    let project : Project :=
      { source := "dir/s.csv".toList
        platform := .web
        languages :=
          [{ id := "en".toList, destination := "dir/e".toList },
            { id := "fr".toList, destination := "dir/f".toList }]
        reference := some "fr".toList }
    Reordered other text ∧ parse other "dir".toList = .ok project := by
  intro text other project
  have same : Reordered other text := ⟨by decide +kernel, by decide +kernel⟩
  have parsed : parse text "dir".toList = .ok project := by rfl
  exact ⟨same, ((line_order_does_not_matter _ text).1 _ same project).2 parsed⟩

end Phrasebook.Project

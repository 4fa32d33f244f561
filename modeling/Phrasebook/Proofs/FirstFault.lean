import Phrasebook.Proofs.LineOrder
import Phrasebook.Proofs.TextLines

/-!
# The first line at fault

A project file is refused for the first line that is at fault, and a fault that names a line names
this one. The lines of a file are read from a draft to the next (`addLines_append`), so a fault
comes from one line, and what stands behind that line is not looked at. What stands before it is
`Acceptable`: alone it would be a project, or it would lack something (`Lacks`). So it is with a
text that is found to lack a platform or languages: no line of it is at fault
(`first_fault_reported`).
-/

namespace Phrasebook

/-- The number of the line that a fault names. -/
def ProjectFault.line? : ProjectFault → Option Nat
  | .malformedLine line => some line
  | .unknownDirective line _ => some line
  | .repeatedDirective line _ => some line
  | .malformedLanguage line => some line
  | .unknownPlatform line _ => some line
  | .unreadable _ _ | .remoteSource _ | .missingSource | .missingPlatform | .noLanguages => none

theorem ProjectFault.exists_message_eq {fault : ProjectFault} {n : Nat}
    (named : fault.line? = some n) : ∃ words, fault.message = onLine n words := by
  cases fault <;> cases named <;> exact ⟨_, rfl⟩

namespace Project

/-! ## Line after line -/

section

variable {base : Path} {d d' : Draft} {fault : ProjectFault} {n : Nat}

/-- Of a line only what is between its blanks counts. -/
theorem Draft.addLines_congr {texts other : List Text}
    (same : other.map Text.trim = texts.map Text.trim) :
    addLines base n d other = addLines base n d texts := by
  induction texts generalizing n d other with
  | nil => rw [List.map_eq_nil_iff.1 same]
  | cons text texts ih =>
    cases other with
    | nil => cases same
    | cons text' other =>
      obtain ⟨first, rest⟩ := List.cons.inj same
      have step : d.addLine base n text' = d.addLine base n text := by
        rw [addLine, addLine, first]
      rw [addLines, addLines, step]
      cases d.addLine base n text with
      | error fault => rfl
      | ok next => exact ih rest

theorem Draft.addLines_append (texts more : List Text) :
    addLines base n d (texts ++ more) =
      match addLines base n d texts with
      | .error fault => .error fault
      | .ok d => addLines base (n + texts.length) d more := by
  induction texts generalizing n d with
  | nil => rfl
  | cons text texts ih =>
    rw [List.cons_append, addLines, addLines]
    cases d.addLine base n text with
    | error fault => rfl
    | ok next =>
      dsimp only
      rw [ih, List.length_cons, Nat.add_assoc, Nat.add_comm 1]

/-- Lines are refused for one of them, after those before it have been read. -/
theorem Draft.addLines_eq_error {texts : List Text} (h : addLines base n d texts = .error fault) :
    ∃ before text after next, texts = before ++ text :: after ∧
      addLines base n d before = .ok next ∧
      next.addLine base (n + before.length) text = .error fault := by
  induction texts generalizing n d with
  | nil => cases h
  | cons text texts ih =>
    rw [addLines] at h
    cases step : d.addLine base n text with
    | error other =>
      rw [step] at h
      exact ⟨[], text, texts, d, rfl, rfl, step.trans h⟩
    | ok next =>
      rw [step] at h
      obtain ⟨before, line, after, last, rfl, read, refused⟩ := ih h
      refine ⟨text :: before, line, after, last, rfl, ?_, ?_⟩
      · rw [addLines, step]
        exact read
      · rwa [List.length_cons, Nat.add_comm before.length, ← Nat.add_assoc]

/-- A text is read line by line, whatever ends its lines. -/
theorem parse_eq (text : Text) (base : Path) :
    parse text base =
      match Draft.addLines base 1 {} text.lines with
      | .error fault => .error fault
      | .ok d => d.finish := by
  have same :
      Draft.addLines base 1 {} (text.splitOn '\n') = Draft.addLines base 1 {} text.lines := by
    rcases text.map_trim_splitOn with equal | more
    · exact Draft.addLines_congr equal
    · have blank : text.lines.map Text.trim ++ [[]] = (text.lines ++ [[]]).map Text.trim := by
        rw [List.map_append]
        rfl
      rw [Draft.addLines_congr (more.trans blank), Draft.addLines_append]
      cases Draft.addLines base 1 {} text.lines <;> rfl
  rw [← same]
  rfl

/-! ## Faults of one line -/

theorem line?_of_sourcePath {value : Text} (h : sourcePath value = .error fault) :
    fault.line? = none ∧ fault ≠ .missingPlatform ∧ fault ≠ .noLanguages := by
  unfold sourcePath at h
  dsimp only at h
  split at h
  · cases h
    exact ⟨rfl, nofun, nofun⟩
  · generalize (if hasScheme _ value = true then _ else value) = path at h
    split at h
    · cases h
      exact ⟨rfl, nofun, nofun⟩
    · cases h

theorem eq_of_once {α : Type} {earlier : Option α} {value : α} {directive : Text}
    {f : Option α → Draft} (h : (once earlier value n directive).map f = .error fault) :
    fault = .repeatedDirective n directive := by
  unfold once at h
  split at h
  · cases h
    rfl
  · cases h

/-- What a line is refused for names its number or none, and is never that something is missing
which may still come. -/
theorem Draft.line?_of_addLine {text : Text} (h : d.addLine base n text = .error fault) :
    (∀ m, fault.line? = some m → m = n) ∧ fault ≠ .missingPlatform ∧ fault ≠ .noLanguages := by
  have named {fault : ProjectFault} (line : fault.line? = some n) :
      (∀ m, fault.line? = some m → m = n) ∧ fault ≠ .missingPlatform ∧ fault ≠ .noLanguages := by
    refine ⟨fun m same => Option.some.inj (same.symm.trans line), ?_, ?_⟩
    · rintro rfl
      cases line
    · rintro rfl
      cases line
  unfold addLine at h
  dsimp only at h
  split at h
  · cases h
  split at h
  · cases h
    exact named rfl
  unfold obey at h
  dsimp only at h
  split at h
  · split at h
    · rename_i other refused
      obtain rfl := Except.error.inj h
      obtain ⟨none, rest⟩ := line?_of_sourcePath refused
      refine ⟨fun m same => ?_, rest⟩
      rw [none] at same
      cases same
    · exact eq_of_once h ▸ named rfl
  split at h
  · split at h
    · cases h
      exact named rfl
    · exact eq_of_once h ▸ named rfl
  split at h
  · exact eq_of_once h ▸ named rfl
  split at h
  · split at h
    · cases h
      exact named rfl
    · cases h
  · cases h
    exact named rfl

end

/-! ## Texts without a line at fault -/

/-- No line of the text is at fault: each that is neither blank nor a comment says something, and
what can be said once is not said again. -/
structure Acceptable (text : Text) : Prop where
  formed : ∀ line ∈ lines text, (Statement.ofLine? line).isSome
  source : (lines text).countP (gives "url") ≤ 1
  platform : (lines text).countP (gives "platform") ≤ 1
  reference : (lines text).countP (gives "reference") ≤ 1

/-- What a text lacks, the first of what should be there: the source, the platform, a language. -/
inductive Lacks (text : Text) : ProjectFault → Prop
  | source (absent : (lines text).countP (gives "url") = 0) : Lacks text .missingSource
  | platform (given : (lines text).countP (gives "url") = 1)
      (absent : (lines text).countP (gives "platform") = 0) : Lacks text .missingPlatform
  | languages (source : (lines text).countP (gives "url") = 1)
      (platform : (lines text).countP (gives "platform") = 1)
      (absent : (lines text).countP (gives "language") = 0) : Lacks text .noLanguages

section

variable {base : Path} {d : Draft} {text : Text} {fault : ProjectFault}

theorem Draft.exists_holds_iff {said : List Statement} :
    (∃ d : Draft, d.Holds base said) ↔
      (said.filterMap (·.source?)).length ≤ 1 ∧ (said.filterMap (·.platform?)).length ≤ 1 ∧
      (said.filterMap (·.reference?)).length ≤ 1 := by
  constructor
  · rintro ⟨d, source, platform, reference, -⟩
    refine ⟨?_, length_le_one_iff.2 ⟨_, platform⟩, length_le_one_iff.2 ⟨_, reference⟩⟩
    have few := length_le_one_iff.2 ⟨_, source⟩
    rwa [List.length_map] at few
  · rintro ⟨source, platform, reference⟩
    obtain ⟨path, source⟩ := length_le_one_iff.1 source
    obtain ⟨p, platform⟩ := length_le_one_iff.1 platform
    obtain ⟨id, reference⟩ := length_le_one_iff.1 reference
    let languages := (said.filterMap (·.language?)).map (languageOf base)
    refine ⟨⟨path.map base.join, p, id, languages.reverse⟩, ?_, platform, reference, ?_⟩
    · rw [source]
      cases path <;> rfl
    · exact languages.reverse_reverse.symm

/-- The draft is without what no line of the text gives. -/
structure Draft.Counts (d : Draft) (text : Text) : Prop where
  source : d.source = none ↔ (lines text).countP (gives "url") = 0
  platform : d.platform = none ↔ (lines text).countP (gives "platform") = 0
  languages : d.languages = [] ↔ (lines text).countP (gives "language") = 0

theorem spoken_lines (text : Text) : spoken text.lines = lines text := by
  unfold lines spoken
  rcases text.map_trim_splitOn with equal | more
  · rw [equal]
  · rw [more, List.filter_append]
    exact (List.append_nil _).symm

/-- A draft that has been read holds what all the lines say. -/
theorem Draft.addLines_lines_eq_ok :
    addLines base 1 {} text.lines = .ok d ↔
      (∀ line ∈ lines text, (Statement.ofLine? line).isSome) ∧
      d.Holds base ((lines text).filterMap Statement.ofLine?) := by
  rw [holds_nil.addLines_eq_ok, spoken_lines, List.nil_append]

/-- All lines can be read if and only if none is at fault. -/
theorem acceptable_iff : Acceptable text ↔ ∃ d, Draft.addLines base 1 {} text.lines = .ok d := by
  simp only [Draft.addLines_lines_eq_ok, exists_and_left, Draft.exists_holds_iff]
  constructor
  · rintro ⟨formed, source, platform, reference⟩
    refine ⟨formed, ?_, ?_, ?_⟩
    · rwa [length_filterMap_of_directive isSome_source? formed]
    · rwa [length_filterMap_of_directive isSome_platform? formed]
    · rwa [length_filterMap_of_directive isSome_reference? formed]
  · rintro ⟨formed, source, platform, reference⟩
    rw [length_filterMap_of_directive isSome_source? formed] at source
    rw [length_filterMap_of_directive isSome_platform? formed] at platform
    rw [length_filterMap_of_directive isSome_reference? formed] at reference
    exact ⟨formed, source, platform, reference⟩

theorem Draft.counts_of_read (read : addLines base 1 {} text.lines = .ok d) : d.Counts text := by
  obtain ⟨formed, holds⟩ := addLines_lines_eq_ok.1 read
  constructor
  case source =>
    rw [← length_filterMap_of_directive isSome_source? formed, List.length_eq_zero_iff,
      ← Option.toList_eq_nil_iff, ← holds.source, List.map_eq_nil_iff]
  case platform =>
    rw [← length_filterMap_of_directive isSome_platform? formed, List.length_eq_zero_iff,
      holds.platform, Option.toList_eq_nil_iff]
  case languages =>
    rw [← length_filterMap_of_directive isSome_language? formed, List.length_eq_zero_iff,
      ← List.reverse_eq_nil_iff, ← holds.languages, List.map_eq_nil_iff]

theorem Draft.finish_eq_error :
    d.finish = .error fault ↔
      d.source = none ∧ fault = .missingSource ∨
      d.source ≠ none ∧ d.platform = none ∧ fault = .missingPlatform ∨
      d.source ≠ none ∧ d.platform ≠ none ∧ d.languages = [] ∧ fault = .noLanguages := by
  obtain ⟨source, platform, reference, languages⟩ := d
  unfold finish
  cases source with
  | none => simp [eq_comm]
  | some source =>
    cases platform with
    | none => simp [eq_comm]
    | some platform => cases languages <;> simp [eq_comm]

/-- A text without a line at fault is refused only for what it lacks. -/
theorem Acceptable.parse_eq_error_iff (h : Acceptable text) (base : Path) :
    parse text base = .error fault ↔ Lacks text fault := by
  obtain ⟨d, read⟩ : ∃ d, Draft.addLines base 1 {} text.lines = .ok d := acceptable_iff.1 h
  obtain ⟨source, platform, languages⟩ := Draft.counts_of_read read
  have few := h.source
  have one := h.platform
  rw [parse_eq, read]
  dsimp only
  rw [Draft.finish_eq_error, ne_eq, ne_eq, source, platform, languages]
  constructor
  · rintro (⟨absent, rfl⟩ | ⟨given, absent, rfl⟩ | ⟨given, chosen, absent, rfl⟩)
    · exact .source absent
    · exact .platform (by omega) absent
    · exact .languages (by omega) (by omega) absent
  · intro lacks
    cases lacks with
    | source absent => exact .inl ⟨absent, rfl⟩
    | platform given absent => exact .inr (.inl ⟨by omega, absent, rfl⟩)
    | languages given chosen absent => exact .inr (.inr ⟨by omega, by omega, absent, rfl⟩)

theorem Acceptable.outcome (h : Acceptable text) (base : Path) :
    (∃ p, parse text base = .ok p) ∨
      ∃ fault, parse text base = .error fault ∧ Lacks text fault := by
  cases result : parse text base with
  | ok p => exact .inl ⟨p, rfl⟩
  | error fault => exact .inr ⟨fault, rfl, (h.parse_eq_error_iff base).1 result⟩

/-- A platform or languages are missed only after all lines have been read. -/
theorem acceptable_of_missing (refused : parse text base = .error fault)
    (missing : fault = .missingPlatform ∨ fault = .noLanguages) : Acceptable text := by
  rw [parse_eq] at refused
  cases read : Draft.addLines base 1 {} text.lines with
  | ok d => exact acceptable_iff.2 ⟨d, read⟩
  | error other =>
    rw [read] at refused
    obtain rfl := Except.error.inj refused
    obtain ⟨before, line, after, next, -, -, fails⟩ := Draft.addLines_eq_error read
    obtain ⟨-, platform, languages⟩ := Draft.line?_of_addLine fails
    exact absurd missing (not_or.2 ⟨platform, languages⟩)

theorem missing_iff (missing : fault = .missingPlatform ∨ fault = .noLanguages) :
    parse text base = .error fault ↔ Acceptable text ∧ Lacks text fault := by
  constructor
  · intro refused
    have acceptable := acceptable_of_missing refused missing
    exact ⟨acceptable, (acceptable.parse_eq_error_iff base).1 refused⟩
  · rintro ⟨acceptable, lacks⟩
    exact (acceptable.parse_eq_error_iff base).2 lacks

end

/-- The fault of a text is that of its line `n`, whatever comes after this line, and no line before
it is at fault. -/
structure FaultyFrom (base : Path) (text : Text) (fault : ProjectFault) (n : Nat) : Prop where
  numbered : 1 ≤ n ∧ n ≤ text.lines.length
  named : ∃ words, fault.message = ProjectFault.onLine n words
  through : ∀ part, text.CutAfter n part → parse part base = .error fault
  before : ∀ part, text.CutAfter (n - 1) part → Acceptable part ∧
    ((∃ p, parse part base = .ok p) ∨ ∃ other, parse part base = .error other ∧ Lacks part other)

theorem faultyFrom_of_line? {base : Path} {text : Text} {fault : ProjectFault} {n : Nat}
    (refused : parse text base = .error fault) (named : fault.line? = some n) :
    FaultyFrom base text fault n := by
  rw [parse_eq] at refused
  cases read : Draft.addLines base 1 {} text.lines with
  | ok d =>
    rw [read] at refused
    rcases Draft.finish_eq_error.1 refused with ⟨-, rfl⟩ | ⟨-, -, rfl⟩ | ⟨-, -, -, rfl⟩
    all_goals cases named
  | error other =>
    rw [read] at refused
    obtain rfl := Except.error.inj refused
    obtain ⟨before, line, after, next, split, earlier, fails⟩ := Draft.addLines_eq_error read
    obtain rfl := (Draft.line?_of_addLine fails).1 n named
    constructor
    case numbered =>
      rw [split, List.length_append, List.length_cons]
      omega
    case named => exact ProjectFault.exists_message_eq named
    case through =>
      intro part cut
      have lines : part.lines = before ++ [line] := by
        rw [cut.lines, split, Nat.add_comm, List.take_length_add_append]
        rfl
      rw [parse_eq, lines, Draft.addLines_append, earlier]
      dsimp only
      rw [Draft.addLines, fails]
    case before =>
      intro part cut
      have lines : part.lines = before := by
        rw [cut.lines, split, Nat.add_sub_cancel_left, List.take_left]
      have acceptable : Acceptable part := acceptable_iff.2 ⟨next, lines ▸ earlier⟩
      exact ⟨acceptable, acceptable.outcome base⟩

/-- **A fault names the first line at fault.** If a text is refused with a fault that names a line,
the text has this line, the same fault is found when the text is cut off after it, and the text cut
off before it has no line at fault: it is a project, or lacks something. A missing platform and
missing languages are found just in texts without a line at fault, and only if there is nothing
else missing that comes before them: first the source, then the platform, then the languages. -/
theorem first_fault_reported (text : Text) (base : Path) :
    (∀ n, ∃ part, text.CutAfter n part) ∧
    (∀ fault n, parse text base = .error fault → fault.line? = some n →
      FaultyFrom base text fault n) ∧
    (parse text base = .error .missingPlatform ↔
      Acceptable text ∧ Lacks text .missingPlatform) ∧
    (parse text base = .error .noLanguages ↔ Acceptable text ∧ Lacks text .noLanguages) :=
  ⟨text.exists_cutAfter, fun _ _ => faultyFrom_of_line?, missing_iff (.inl rfl),
    missing_iff (.inr rfl)⟩

/-- A directive given again after a comment and a blank line, where lines end in two ways. -/
theorem first_fault_reported_of_repeated :
    let text : Text := "# app\r\nPlatform: ios\r\n\nURL: a\nplatform : web\r\nnonsense".toList
    let fault := ProjectFault.repeatedDirective 5 "platform".toList
    parse text [] = .error fault ∧ fault.line? = some 5 ∧ FaultyFrom [] text fault 5 ∧
      text.CutAfter 4 "# app\r\nPlatform: ios\r\n\nURL: a".toList := by
  intro text fault
  have refused : parse text [] = .error fault := by rfl
  exact ⟨refused, rfl, (first_fault_reported text []).2.1 fault 5 refused rfl,
    by decide, by decide⟩

end Project

end Phrasebook

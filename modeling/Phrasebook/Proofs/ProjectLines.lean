import Phrasebook.Project

/-!
# What the lines of a project file say

A project file is read line by line into a draft, and whether a line is accepted depends on the
lines before it. Here each line is read on its own: `Statement.ofLine?` gives what it says, if it is
well formed. A draft holds what the lines so far have said (`Draft.Holds`), a step adds one
statement to it, and so a project is read from a text if and only if every line that is neither
blank nor a comment says something and the project is what they say together: `parse_eq_ok`.
-/

namespace Phrasebook.Project

inductive Statement
  | source (path : Path)
  | platform (p : Platform)
  | reference (id : Text)
  | language (id : Text) (path : Path)
deriving Repr, DecidableEq

namespace Statement

def source? : Statement → Option Path
  | .source path => some path
  | _ => none

def platform? : Statement → Option Platform
  | .platform p => some p
  | _ => none

def reference? : Statement → Option Text
  | .reference id => some id
  | _ => none

def language? : Statement → Option (Text × Path)
  | .language id path => some (id, path)
  | _ => none

def directive : Statement → Text
  | .source _ => "url".toList
  | .platform _ => "platform".toList
  | .reference _ => "reference".toList
  | .language _ _ => "language".toList

/-- What a directive says with a value. -/
def ofDirective? (directive value : Text) : Option Statement :=
  let name := directive.lower
  if name == "url".toList then (sourcePath value).toOption.map .source
  else if name == "platform".toList then (Platform.ofName? value).map .platform
  else if name == "reference".toList then some (.reference value)
  else if name == "language".toList then
    (languageParts? value).map fun (id, path) => .language id path
  else none

/-- What a line says on its own, if it is well formed. -/
def ofLine? (line : Text) : Option Statement :=
  (Text.cut ':' line).bind fun (directive, value) => ofDirective? directive.trim value.trim

end Statement

def speaks (line : Text) : Bool := !(line.isEmpty || line.head? == some '#')

theorem speaks_cons {c : Char} (other : c ≠ '#') (t : Text) : speaks (c :: t) = true := by
  simp [speaks, other]

def spoken (texts : List Text) : List Text := (texts.map Text.trim).filter speaks

/-- The lines of a text that are neither blank nor comments, without the blanks around them. -/
def lines (text : Text) : List Text := spoken (text.splitOn '\n')

def languageOf (base : Path) (declared : Text × Path) : Language :=
  { id := declared.1, destination := base.join declared.2 }

/-! ## Drafts -/

section

variable {α : Type} {a b : Option α}

/-- What holds one thing at most can take one more only if it holds none. -/
theorem toList_append_eq_toList {x : α} :
    a.toList ++ [x] = b.toList ↔ a = none ∧ some x = b := by
  cases a <;> cases b <;> simp

theorem toList_inj : a.toList = b.toList ↔ a = b := by
  cases a <;> cases b <;> simp

theorem length_le_one_iff {xs : List α} : xs.length ≤ 1 ↔ ∃ a : Option α, xs = a.toList := by
  constructor
  · intro few
    match xs, few with
    | [], _ => exact ⟨none, rfl⟩
    | [x], _ => exact ⟨some x, rfl⟩
  · rintro ⟨a, rfl⟩
    cases a <;> simp

theorem perm_toList {xs : List α} : xs.Perm a.toList ↔ xs = a.toList := by
  cases a with
  | none => exact List.perm_nil
  | some x => exact List.perm_singleton

/-- The beginning of what holds one thing at most holds one thing at most. -/
theorem exists_eq_toList {xs more : List α} (h : xs ++ more = a.toList) :
    ∃ b : Option α, xs = b.toList := by
  have few : (xs ++ more).length ≤ 1 := length_le_one_iff.2 ⟨a, h⟩
  rw [List.length_append] at few
  exact length_le_one_iff.1 (by omega)

theorem filterMap_singleton_eq {β : Type} (f : α → Option β) (x : α) :
    [x].filterMap f = (f x).toList := by
  cases said : f x <;> simp [said]

end

/-- The draft holds what has been said, and nothing else. -/
structure Draft.Holds (base : Path) (d : Draft) (said : List Statement) : Prop where
  source : (said.filterMap (·.source?)).map base.join = d.source.toList
  platform : said.filterMap (·.platform?) = d.platform.toList
  reference : said.filterMap (·.reference?) = d.reference.toList
  languages : (said.filterMap (·.language?)).map (languageOf base) = d.languages.reverse

/-- The draft with one more statement, unless that can be made once and has been made before. -/
def Draft.add (base : Path) (d : Draft) : Statement → Option Draft
  | .source path =>
    if d.source.isSome then none else some { d with source := some (base.join path) }
  | .platform p => if d.platform.isSome then none else some { d with platform := some p }
  | .reference id => if d.reference.isSome then none else some { d with reference := some id }
  | .language id path => some { d with languages := languageOf base (id, path) :: d.languages }

section

variable {base : Path} {d d' : Draft} {said : List Statement} {st : Statement}

theorem Draft.holds_nil : ({} : Draft).Holds base [] := ⟨rfl, rfl, rfl, rfl⟩

theorem Draft.Holds.unique (h : d.Holds base said) (h' : d'.Holds base said) : d = d' := by
  obtain ⟨source, platform, reference, languages⟩ := d
  obtain ⟨source', platform', reference', languages'⟩ := d'
  obtain rfl := toList_inj.1 (h.source.symm.trans h'.source)
  obtain rfl := toList_inj.1 (h.platform.symm.trans h'.platform)
  obtain rfl := toList_inj.1 (h.reference.symm.trans h'.reference)
  obtain rfl := List.reverse_inj.1 (h.languages.symm.trans h'.languages)
  rfl

/-- A statement can be taken in if and only if no place of the draft comes to hold two things. -/
theorem Draft.add_eq_some :
    d.add base st = some d' ↔
      d.source.toList ++ st.source?.toList.map base.join = d'.source.toList ∧
      d.platform.toList ++ st.platform?.toList = d'.platform.toList ∧
      d.reference.toList ++ st.reference?.toList = d'.reference.toList ∧
      d.languages.reverse ++ st.language?.toList.map (languageOf base) = d'.languages.reverse := by
  obtain ⟨source, platform, reference, languages⟩ := d
  obtain ⟨source', platform', reference', languages'⟩ := d'
  cases st with
  | source path =>
    simp [add, Statement.source?, Statement.platform?, Statement.reference?, Statement.language?,
      toList_append_eq_toList, toList_inj, and_assoc]
  | platform p =>
    simp [add, Statement.source?, Statement.platform?, Statement.reference?, Statement.language?,
      toList_append_eq_toList, toList_inj, and_assoc, and_left_comm]
  | reference id =>
    simp [add, Statement.source?, Statement.platform?, Statement.reference?, Statement.language?,
      toList_append_eq_toList, toList_inj, and_assoc, and_left_comm]
  | language id path =>
    simp [add, Statement.source?, Statement.platform?, Statement.reference?, Statement.language?,
      toList_inj, ← List.reverse_cons]

/-- Taking a statement in is to hold it beside what has been said. -/
theorem Draft.Holds.add_eq_some (h : d.Holds base said) :
    d.add base st = some d' ↔ d'.Holds base (said ++ [st]) := by
  rw [Draft.add_eq_some, ← h.source, ← h.platform, ← h.reference, ← h.languages]
  constructor
  · rintro ⟨source, platform, reference, languages⟩
    constructor
    case source => simpa [filterMap_singleton_eq] using source
    case platform => simpa [filterMap_singleton_eq] using platform
    case reference => simpa [filterMap_singleton_eq] using reference
    case languages => simpa [filterMap_singleton_eq] using languages
  · rintro ⟨source, platform, reference, languages⟩
    refine ⟨?source, ?platform, ?reference, ?languages⟩
    case source => simpa [filterMap_singleton_eq] using source
    case platform => simpa [filterMap_singleton_eq] using platform
    case reference => simpa [filterMap_singleton_eq] using reference
    case languages => simpa [filterMap_singleton_eq] using languages

/-- If a draft can hold all that is said, one can hold the beginning of it. -/
theorem Draft.Holds.of_append {more : List Statement} (h : d.Holds base (said ++ more)) :
    ∃ earlier : Draft, earlier.Holds base said := by
  have holds := h.source
  rw [List.filterMap_append, List.map_append] at holds
  obtain ⟨source, source_eq⟩ := exists_eq_toList holds
  have holds := h.platform
  rw [List.filterMap_append] at holds
  obtain ⟨platform, platform_eq⟩ := exists_eq_toList holds
  have holds := h.reference
  rw [List.filterMap_append] at holds
  obtain ⟨reference, reference_eq⟩ := exists_eq_toList holds
  let languages := (said.filterMap (·.language?)).map (languageOf base)
  exact ⟨⟨source, platform, reference, languages.reverse⟩, source_eq, platform_eq, reference_eq,
    languages.reverse_reverse.symm⟩

/-! ## Lines -/

theorem map_once_eq_ok {α : Type} {earlier : Option α} {value : α} {n : Nat} {directive : Text}
    {f : Option α → Draft} :
    (once earlier value n directive).map f = .ok d ↔
      (if earlier.isSome then none else some (f (some value))) = some d := by
  unfold once
  split <;> simp [Except.map]

theorem Draft.obey_eq_ok {n : Nat} {directive value : Text} :
    d.obey base n directive value = .ok d' ↔
      ∃ st, Statement.ofDirective? directive value = some st ∧ d.add base st = some d' := by
  unfold obey Statement.ofDirective?
  dsimp only
  split
  · cases path : sourcePath value with
    | error fault => simp [Except.toOption]
    | ok path => simp [Except.toOption, map_once_eq_ok, add]
  split
  · cases found : Platform.ofName? value with
    | none => simp
    | some p => simp [map_once_eq_ok, add]
  split
  · simp [map_once_eq_ok, add]
  split
  · cases parts : languageParts? value with
    | none => simp
    | some parts => simp [add, languageOf]
  · simp

theorem Draft.addLine_of_silent {n : Nat} {text : Text} (silent : speaks text.trim = false) :
    d.addLine base n text = .ok d := by
  unfold addLine
  apply if_pos
  simpa only [speaks, Bool.not_eq_false'] using silent

theorem Draft.addLine_eq_ok {n : Nat} {text : Text} (speaking : speaks text.trim = true) :
    d.addLine base n text = .ok d' ↔
      ∃ st, Statement.ofLine? text.trim = some st ∧ d.add base st = some d' := by
  have speaking : ¬(text.trim.isEmpty || text.trim.head? == some '#') = true := by
    simpa [speaks] using speaking
  unfold addLine Statement.ofLine?
  rw [if_neg speaking]
  cases parts : Text.cut ':' text.trim with
  | none => simp
  | some parts => simp [obey_eq_ok]

theorem Draft.addLines_cons_eq_ok {n : Nat} {text : Text} {texts : List Text} :
    addLines base n d (text :: texts) = .ok d' ↔
      ∃ next, d.addLine base n text = .ok next ∧ addLines base (n + 1) next texts = .ok d' := by
  rw [addLines]
  cases step : d.addLine base n text <;> simp

/-- Lines can be read one after the other if and only if each says something on its own and some
draft holds all of it. -/
theorem Draft.Holds.addLines_eq_ok (h : d.Holds base said) {n : Nat} {texts : List Text} :
    addLines base n d texts = .ok d' ↔
      (∀ line ∈ spoken texts, (Statement.ofLine? line).isSome) ∧
      d'.Holds base (said ++ (spoken texts).filterMap Statement.ofLine?) := by
  induction texts generalizing d said n with
  | nil =>
    simp only [addLines, Except.ok.injEq, spoken, List.map_nil, List.filter_nil, List.not_mem_nil,
      false_implies, implies_true, List.filterMap_nil, List.append_nil, true_and]
    constructor
    · rintro rfl
      exact h
    · exact h.unique
  | cons text texts ih =>
    rw [addLines_cons_eq_ok]
    cases speaking : speaks text.trim with
    | false =>
      have skipped : spoken (text :: texts) = spoken texts := by simp [spoken, speaking]
      simp [addLine_of_silent speaking, skipped, ih h]
    | true =>
      have heard : spoken (text :: texts) = text.trim :: spoken texts := by simp [spoken, speaking]
      simp only [addLine_eq_ok speaking, heard, List.forall_mem_cons]
      constructor
      · rintro ⟨next, ⟨st, said_here, added⟩, rest⟩
        obtain ⟨others, holds⟩ := (ih (h.add_eq_some.1 added)).1 rest
        refine ⟨⟨by simp [said_here], others⟩, ?_⟩
        simpa [said_here] using holds
      · rintro ⟨⟨here, others⟩, holds⟩
        obtain ⟨st, said_here⟩ := Option.isSome_iff_exists.1 here
        rw [List.filterMap_cons_some said_here, List.append_cons] at holds
        -- what the draft holds after this line is not given, but its end holds more
        obtain ⟨next, held⟩ := holds.of_append
        exact ⟨next, ⟨st, said_here, h.add_eq_some.2 held⟩, (ih held).2 ⟨others, holds⟩⟩

end

/-! ## Projects -/

/-- The project is what has been said: one source, one platform, one reference at most and the
languages in order, of which there is one at least. -/
structure Says (base : Path) (p : Project) (said : List Statement) : Prop where
  source : (said.filterMap (·.source?)).map base.join = [p.source]
  platform : said.filterMap (·.platform?) = [p.platform]
  reference : said.filterMap (·.reference?) = p.reference.toList
  languages : (said.filterMap (·.language?)).map (languageOf base) = p.languages
  declares : p.languages ≠ []

/-- What is said once at most has only one order. -/
theorem Says.of_perm {base : Path} {p : Project} {said other : List Statement}
    (told : p.Says base said) (same : other.Perm said)
    (languages : other.filterMap (·.language?) = said.filterMap (·.language?)) :
    p.Says base other where
  source := List.perm_singleton.1 (told.source ▸ (same.filterMap _).map _)
  platform := List.perm_singleton.1 (told.platform ▸ same.filterMap _)
  reference := perm_toList.1 (told.reference ▸ same.filterMap _)
  languages := by rw [languages, told.languages]
  declares := told.declares

def Draft.ofProject (p : Project) : Draft :=
  { source := some p.source
    platform := some p.platform
    reference := p.reference
    languages := p.languages.reverse }

theorem says_iff_holds {base : Path} {p : Project} {said : List Statement} :
    p.Says base said ↔ (Draft.ofProject p).Holds base said ∧ p.languages ≠ [] := by
  constructor
  · rintro ⟨source, platform, reference, languages, declares⟩
    exact ⟨⟨source, platform, reference, by simpa [Draft.ofProject] using languages⟩, declares⟩
  · rintro ⟨⟨source, platform, reference, languages⟩, declares⟩
    exact ⟨source, platform, reference, by simpa [Draft.ofProject] using languages, declares⟩

theorem Draft.finish_eq_ok {d : Draft} {p : Project} :
    d.finish = .ok p ↔ d = ofProject p ∧ p.languages ≠ [] := by
  obtain ⟨source, platform, reference, languages⟩ := d
  obtain ⟨source', platform', languages', reference'⟩ := p
  unfold finish ofProject
  cases source with
  | none => simp
  | some source =>
    cases platform with
    | none => simp
    | some platform =>
      cases languages with
      | nil => simp
      | cons language languages =>
        simp only [List.isEmpty_cons, Bool.false_eq_true, if_false, Except.ok.injEq,
          Draft.mk.injEq, Option.some.injEq, Project.mk.injEq]
        constructor
        · rintro ⟨rfl, rfl, rfl, rfl⟩
          simp
        · rintro ⟨⟨rfl, rfl, rfl, reversed⟩, -⟩
          simp [reversed]

/-- **What a project file says.** A project is read from a text if and only if every line that is
neither blank nor a comment says something on its own, and the project is what they say. -/
theorem parse_eq_ok {text : Text} {base : Path} {p : Project} :
    parse text base = .ok p ↔
      (∀ line ∈ lines text, (Statement.ofLine? line).isSome) ∧
      p.Says base ((lines text).filterMap Statement.ofLine?) := by
  have read (d : Draft) : Draft.addLines base 1 {} (text.splitOn '\n') = .ok d ↔
      (∀ line ∈ lines text, (Statement.ofLine? line).isSome) ∧
      d.Holds base ((lines text).filterMap Statement.ofLine?) :=
    Draft.holds_nil.addLines_eq_ok
  unfold parse
  rw [says_iff_holds]
  constructor
  · intro parsed
    cases lines_read : Draft.addLines base 1 {} (text.splitOn '\n') with
    | error fault =>
      rw [lines_read] at parsed
      cases parsed
    | ok d =>
      rw [lines_read] at parsed
      obtain ⟨rfl, declares⟩ := Draft.finish_eq_ok.1 parsed
      obtain ⟨formed, holds⟩ := (read _).1 lines_read
      exact ⟨formed, holds, declares⟩
  · rintro ⟨formed, holds, declares⟩
    rw [(read _).2 ⟨formed, holds⟩]
    exact Draft.finish_eq_ok.2 ⟨rfl, declares⟩

end Phrasebook.Project

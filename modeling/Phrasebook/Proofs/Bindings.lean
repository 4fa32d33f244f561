import Phrasebook.Proofs.History

namespace Phrasebook

/-- The header of a sheet, if the sheet has one that can be read. -/
def Sheet.header? (options : SheetOptions) (bytes : Bytes) : Option Row :=
  (Sheet.read options bytes).toOption.map (·.header)

/-- The language has no column, or a column after the keys that a header names after it. -/
def Language.BoundUnder (header? : Option Row) (l : Language) : Prop :=
  ∀ c, l.column = some c → 1 ≤ c ∧ ∃ header, header? = some header ∧ header[c]? = some l.id

theorem Language.boundUnder_bind (header : Row) (l : Language) :
    (l.bind header).BoundUnder (some header) := by
  intro c column
  obtain ⟨after, ⟨cell, found, named⟩, -⟩ := columnWhere_eq_some.1 column
  exact ⟨after, header, rfl, (eq_of_beq named) ▸ found⟩

theorem Language.boundUnder_none {l : Language} : l.BoundUnder none ↔ l.column = none := by
  constructor
  · intro bound
    cases given : l.column with
    | none => rfl
    | some c =>
      obtain ⟨-, header, absent, -⟩ := bound c given
      cases absent
  · intro unbound c column
    rw [unbound] at column
    cases column

namespace Session

theorem languages_of_header {s : Session} {bytes : Bytes} {header : Row}
    (h : Sheet.header? s.options.sheet bytes = some header) :
    (s.prepare bytes).1.languages = s.languages.map (·.bind header) := by
  rw [languages_prepare]
  cases read : Sheet.read s.options.sheet bytes with
  | error p => simp [Sheet.header?, read, Except.toOption] at h
  | ok sheet =>
    obtain rfl : sheet.header = header := by simpa [Sheet.header?, read, Except.toOption] using h
    rfl

theorem languages_of_no_header {s : Session} {bytes : Bytes}
    (h : Sheet.header? s.options.sheet bytes = none) :
    (s.prepare bytes).1.languages = s.languages := by
  rw [languages_prepare]
  cases read : Sheet.read s.options.sheet bytes with
  | error p => rfl
  | ok sheet => simp [Sheet.header?, read, Except.toOption] at h

/-- **A header ends all earlier bindings, and nothing else does.** In whatever state a session is,
once it has prepared a sheet each language has no column or one that this sheet's header names after
it, exactly if the sheet has a header or no language was bound before. -/
theorem bindings_end_iff_header (s : Session) (bytes : Bytes) :
    (∀ l ∈ (s.prepare bytes).1.languages, l.BoundUnder (Sheet.header? s.options.sheet bytes)) ↔
      (Sheet.header? s.options.sheet bytes).isSome ∨ ∀ l ∈ s.languages, l.column = none := by
  cases read : Sheet.header? s.options.sheet bytes with
  | some header =>
    rw [languages_of_header read]
    refine iff_of_true (fun l mem => ?_) (.inl rfl)
    obtain ⟨l, -, rfl⟩ := List.mem_map.1 mem
    exact l.boundUnder_bind header
  | none =>
    rw [languages_of_no_header read]
    simp [Language.boundUnder_none]

/-- An empty sheet leaves the column that an earlier sheet gave. -/
theorem binding_outlives_sheet_without_header :
    ¬ ∀ (platform : Platform) (languages : List Language) (fresh : Session) (calls : List Call)
        (bytes : Bytes), Session.new platform languages = .ok fresh →
      ∀ l ∈ ((fresh.after calls).prepare bytes).1.languages,
        l.BoundUnder (Sheet.header? (fresh.after calls).options.sheet bytes) := by
  intro all
  let l : Language := { id := "en".toList, destination := "en.out".toList }
  let calls : List Call := [.prepare (Utf8.encode "key,en\na,A\n".toList)]
  let fresh : Session := { platform := .ios, languages := [l] }
  have bound := all .ios [l] fresh calls [] rfl
  have kept : { l with column := some 1 } ∈ ((fresh.after calls).prepare []).1.languages := by
    decide +kernel
  obtain ⟨-, header, absent, -⟩ := bound _ kept 1 rfl
  cases absent

end Session

end Phrasebook

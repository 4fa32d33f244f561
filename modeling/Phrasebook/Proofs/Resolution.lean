import Mathlib.Order.Bounds.Defs
import Phrasebook.Proofs.History

namespace Phrasebook

/-- The first column behind the keys whose header cell has a property. -/
def FirstColumn (header : Row) (P : Text → Prop) (c : Nat) : Prop :=
  IsLeast {c | 1 ≤ c ∧ ∃ cell, header[c]? = some cell ∧ P cell} c

theorem columnWhere_eq_some_iff_first {test : Text → Bool} {P : Text → Prop}
    (tests : ∀ cell, test cell = true ↔ P cell) {header : Row} {c : Nat} :
    columnWhere test header = some c ↔ FirstColumn header P c := by
  rw [columnWhere_eq_some]
  constructor
  · rintro ⟨behind, ⟨cell, place, passes⟩, earlier⟩
    refine ⟨⟨behind, cell, place, (tests cell).1 passes⟩, ?_⟩
    rintro j ⟨first, other, there, holds⟩
    refine Nat.le_of_not_lt fun before => ?_
    have fails := earlier j first before other there
    rw [(tests other).2 holds] at fails
    cases fails
  · rintro ⟨⟨behind, cell, place, holds⟩, least⟩
    refine ⟨behind, ⟨cell, place, (tests cell).2 holds⟩, fun j first before other there => ?_⟩
    refine eq_false_of_ne_true fun passes => ?_
    have later : c ≤ j := least ⟨first, other, there, (tests other).1 passes⟩
    omega

theorem columnWhere_eq_none {test : Text → Bool} {header : Row} :
    columnWhere test header = none ↔
      ∀ c, 1 ≤ c → ∀ cell, header[c]? = some cell → test cell = false := by
  rw [columnWhere, Option.map_eq_none_iff, List.findIdx?_eq_none_iff]
  constructor
  · intro fails c behind cell place
    apply fails
    apply List.mem_of_getElem? (i := c - 1)
    rwa [List.getElem?_drop, Nat.add_sub_cancel' behind]
  · intro fails cell mem
    obtain ⟨i, place⟩ := List.getElem?_of_mem mem
    rw [List.getElem?_drop] at place
    exact fails (1 + i) (Nat.le_add_right 1 i) cell place

theorem isPlatformsCell_iff {cell : Text} :
    isPlatformsCell cell = true ↔ cell.trim.lower = "platforms".toList := beq_iff_eq

theorem platformsColumn_eq_error {header : Row} {languages : List Language} {p : Problem} :
    platformsColumn header languages = .error p ↔
      ∃ before l after, languages = before ++ l :: after ∧ (∀ k ∈ before, k.column ≠ none) ∧
        l.column = none ∧ p = .unresolvedLanguage l.id := by
  unfold platformsColumn
  cases missing : languages.find? (·.column.isNone) with
  | none =>
    refine iff_of_false nofun ?_
    rintro ⟨before, l, after, rfl, -, unbound, -⟩
    simpa [unbound] using List.find?_eq_none.1 missing l (by simp)
  | some l =>
    obtain ⟨unbound, before, after, rfl, bound⟩ := List.find?_eq_some_iff_append.1 missing
    constructor
    · intro same
      refine ⟨before, l, after, rfl, fun k mem absent => ?_, by simpa using unbound, ?_⟩
      · simpa [absent] using bound k mem
      · exact (Except.error.inj same).symm
    · rintro ⟨others, k, rest, same, resolved, absent, rfl⟩
      have found : (before ++ l :: after).find? (·.column.isNone) = some k := by
        rw [same, List.find?_eq_some_iff_append]
        refine ⟨by simp [absent], others, rest, rfl, fun j mem => ?_⟩
        simpa [Option.isSome_iff_ne_none] using resolved j mem
      obtain rfl := Option.some.inj (missing.symm.trans found)
      rfl

/-- A column that a language is bound to is no platforms column, even if it is the first one that
is named so; there is no second choice. -/
theorem platformsColumn_eq_ok {header : Row} {languages : List Language} {column : Option Nat}
    (h : platformsColumn header languages = .ok column) (c : Nat) :
    column = some c ↔
      columnWhere isPlatformsCell header = some c ∧ ∀ l ∈ languages, l.column ≠ some c := by
  unfold platformsColumn at h
  split at h
  · cases h
  · obtain rfl := Except.ok.inj h
    simp [Option.filter_eq_some_iff]

/-- What it is that languages, as they were declared, have been bound under a header, where the
answer is the platforms column or a problem. -/
structure Resolved (header : Row) (declared bound : List Language)
    (answer : Except Problem (Option Nat)) : Prop where
  /-- Nothing of a language is changed but its column. -/
  same : bound.map (·.unbound) = declared.map (·.unbound)
  column : ∀ l ∈ bound, ∀ c, l.column = some c ↔ FirstColumn header (· = l.id) c
  without : ∀ l ∈ bound, l.column = none ↔ ∀ c, 1 ≤ c → header[c]? ≠ some l.id
  apart : ∀ l ∈ bound, ∀ k ∈ bound, ∀ c, l.column = some c → k.column = some c → l.id = k.id
  /-- There is a problem if and only if a language has no column, and it is the first such one. -/
  problem : ∀ p, answer = .error p ↔
    ∃ before l after, bound = before ++ l :: after ∧ (∀ k ∈ before, k.column ≠ none) ∧
      l.column = none ∧ p = .unresolvedLanguage l.id
  /-- Otherwise the platforms column is the first one that is named so, unless a language has it. -/
  platforms : ∀ column, answer = .ok column → ∀ c, column = some c ↔
    FirstColumn header (·.trim.lower = "platforms".toList) c ∧ ∀ l ∈ bound, l.column ≠ some c

theorem Language.column_bind {header : Row} {l : Language} {c : Nat} :
    (l.bind header).column = some c ↔ FirstColumn header (· = l.id) c :=
  columnWhere_eq_some_iff_first fun _ => beq_iff_eq

theorem Language.column_bind_eq_none {header : Row} {l : Language} :
    (l.bind header).column = none ↔ ∀ c, 1 ≤ c → header[c]? ≠ some l.id := by
  refine columnWhere_eq_none.trans (forall_congr' fun c => forall_congr' fun _ => ?_)
  constructor
  · intro other named
    simpa using other l.id named
  · rintro unnamed cell place
    refine beq_false_of_ne ?_
    rintro rfl
    exact unnamed place

theorem resolved_bind (header : Row) (languages : List Language) :
    Resolved header languages (languages.map (·.bind header))
      (platformsColumn header (languages.map (·.bind header))) where
  same := by rw [List.map_map]; rfl
  column := by
    intro l mem c
    obtain ⟨l, -, rfl⟩ := List.mem_map.1 mem
    exact Language.column_bind
  without := by
    intro l mem
    obtain ⟨l, -, rfl⟩ := List.mem_map.1 mem
    exact Language.column_bind_eq_none
  apart := by
    intro l first k second c column shared
    obtain ⟨l, -, rfl⟩ := List.mem_map.1 first
    obtain ⟨k, -, rfl⟩ := List.mem_map.1 second
    obtain ⟨⟨-, cell, place, name⟩, -⟩ := Language.column_bind.1 column
    obtain ⟨⟨-, other, again, others⟩, -⟩ := Language.column_bind.1 shared
    obtain rfl : cell = other := Option.some.inj (place.symm.trans again)
    exact name.symm.trans others
  problem _ := platformsColumn_eq_error
  platforms column answer c := by
    rw [platformsColumn_eq_ok answer, columnWhere_eq_some_iff_first fun _ => isPlatformsCell_iff]

/-- **Columns are resolved exactly, and without a trace of the past.** Under every header and for
all languages, whatever columns these had, each language gets the first column behind the keys with
its name and none if there is none, also if the answer is a problem; the problem and the platforms
column are as `Resolved` says. Languages that had no column would have come out the same, and to
resolve the header again gives the same languages and the same answer. -/
theorem resolution_exact (header : Row) (languages : List Language) :
    let bound := languages.map (·.bind header)
    let answer := platformsColumn header bound
    Resolved header languages bound answer ∧
      (languages.map (·.unbound)).map (·.bind header) = bound ∧
      bound.map (·.bind header) = bound ∧
      platformsColumn header (bound.map (·.bind header)) = answer := by
  intro bound answer
  have again : bound.map (·.bind header) = bound := by
    rw [List.map_map]
    rfl
  refine ⟨resolved_bind header languages, ?_, again, by rw [again]⟩
  rw [List.map_map]
  rfl

/-- A language may be called as the platforms column is. Then there is none, since no second choice
is made among the columns so called. -/
example :
    let header : Row := [['k'], "platforms".toList, "Platforms".toList]
    let languages : List Language := [⟨"platforms".toList, ['p'], none⟩]
    platformsColumn header (languages.map (·.bind header)) = .ok none := by rfl

end Phrasebook

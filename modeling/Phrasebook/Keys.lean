import Phrasebook.Table
import Std.Data.TreeMap

/-!
# Keys

The keys of a table are checked before anything is rendered. A key must not contain a blank; a key
that is not empty and no header must, if the check is strict, be made of ASCII letters, digits and
underscores, and must not be the key of a later phrase. The first phrase at fault, in the order of
the table, is the one that is reported. The check reads the table once, from its end, and keeps
the next row of each key in an index; `getElem?_scan` says what that index holds.
-/

namespace Phrasebook.Keys

/-- Characters of a key under the strict check. -/
def isKeyChar (c : Char) : Bool := c.isAlphanum || c == '_'

/-- What is wrong with one phrase, when the row of the next phrase with its key is known. -/
def problemOf (strict : Bool) (p : Phrase) (next : Option Nat) : Option Problem :=
  if p.key.any isBlank then some (.keyContainsBlank p.row p.key)
  else if p.key.isEmpty || p.isHeader then none
  else if strict && !p.key.all isKeyChar then some (.illegalKey p.row p.key)
  else next.map fun second => .duplicateKey p.row second p.key

/-- The first row of each key, and the first problem. -/
def scan (strict : Bool) : Table → Std.TreeMap Text Nat × Option Problem
  | [] => (∅, none)
  | p :: table =>
    let (rows, later) := scan strict table
    (rows.insert p.key p.row, (problemOf strict p rows[p.key]?).or later)

/-- Whether the keys of a table are in order. -/
def check (strict : Bool) (table : Table) : Except Problem Unit :=
  match (scan strict table).2 with
  | some problem => .error problem
  | none => .ok ()

theorem getElem?_scan (strict : Bool) (table : Table) (key : Text) :
    (scan strict table).1[key]? = (table.find? key).map (·.row) := by
  induction table with
  | nil => simp [scan, Table.find?]
  | cons p table ih =>
    simp only [scan, Std.TreeMap.getElem?_insert, Table.find?, List.find?_cons] at ih ⊢
    by_cases h : p.key = key
    · simp [h]
    · simp [h, ih, beq_false_of_ne]

end Phrasebook.Keys

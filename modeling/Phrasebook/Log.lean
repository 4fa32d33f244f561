import Phrasebook.Event
import Phrasebook.Text.Printable
import Phrasebook.Text.Terminal

namespace Phrasebook

inductive Level
  | debug
  | info
  | warn
  | error
deriving Repr, DecidableEq

namespace Level

def name : Level → Text
  | .debug => "DEBUG".toList
  | .info => "INFO".toList
  | .warn => "WARN".toList
  | .error => "ERROR".toList

end Level

structure LogLine where
  level : Level
  message : Text
  /-- The fields after the message, in order, each with its name. -/
  fields : List (String × Text) := []
deriving Repr, DecidableEq

/-- What the line says after its level. -/
def LogLine.text (line : LogLine) : Text :=
  line.message.forTerminal
    ++ line.fields.flatMap fun (name, value) => ' ' :: name.toList ++ '=' :: value

def Severity.level : Severity → Level
  | .warning => .warn
  | .error => .error

def Diagnostic.logLine (d : Diagnostic) : LogLine :=
  { level := d.severity.level
    message := d.message
    fields := (d.row.toList.map fun row => ("row", Text.decimal row))
      ++ d.language.toList.map fun language => ("language", language.inQuotes) }

def Event.logLine : Event → LogLine
  | .noted d => d.logLine
  | .skippedRow row =>
    ⟨.debug, "skipping row meant for another platform".toList, [("row", Text.decimal row)]⟩
  | .builtTable phrases =>
    ⟨.debug, "built translation table".toList, [("entries", Text.decimal phrases)]⟩
  | .wrote language path =>
    ⟨.info, "Wrote ".toList ++ language ++ " to file: ".toList ++ path,
      [("language", language), ("path", path)]⟩
  | .completed documents =>
    ⟨.info, "Strings parsing complete".toList, [("documents", Text.decimal documents)]⟩

/-- The lines that are shown: those for finding faults only on request. -/
def shownLines (verbose : Bool) (log : List LogLine) : List LogLine :=
  if verbose then log else log.filter (·.level != .debug)

end Phrasebook

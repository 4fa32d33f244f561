import Phrasebook.Text.Basic

namespace Phrasebook

/-- A warning leaves the result usable, an error does not. -/
inductive Severity
  | warning
  | error
deriving Repr, DecidableEq

namespace Severity

def name : Severity → Text
  | .warning => "warning".toList
  | .error => "error".toList

/-- The name before a message. -/
def label : Severity → Text
  | .warning => "Warning".toList
  | .error => "Error".toList

end Severity

structure Diagnostic where
  severity : Severity
  /-- The number of the row in the sheet. -/
  row : Option Nat := none
  /-- The language whose document was being made. -/
  language : Option Text := none
  message : Text
deriving Repr, DecidableEq

namespace Diagnostic

def rowWarning (row : Nat) (message : Text) : Diagnostic :=
  { severity := .warning, row := some row, message := message }

def isError (d : Diagnostic) : Bool := d.severity == .error

def display (d : Diagnostic) : Text :=
  match d.language with
  | some language =>
    d.severity.label ++ " [".toList ++ language ++ "]: ".toList ++ d.message
  | none => d.severity.label ++ ": ".toList ++ d.message

end Diagnostic

/-- Diagnostics in the order in which they arose. -/
abbrev Diagnostics := List Diagnostic

namespace Diagnostics

def warnings (ds : Diagnostics) : Diagnostics := ds.filter (!·.isError)

def errors (ds : Diagnostics) : Diagnostics := ds.filter (·.isError)

def hasErrors (ds : Diagnostics) : Bool := ds.any (·.isError)

end Diagnostics

end Phrasebook

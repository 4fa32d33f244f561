import Phrasebook.Diagnostic
import Phrasebook.Json.Quoted

namespace Phrasebook.Report

/-- The members of a diagnostic: each name with its value in JSON. -/
def members (d : Diagnostic) : List (Text × Text) :=
  [("severity".toList, Json.quoted d.severity.name)]
    ++ (d.row.toList.map fun row => ("row".toList, Text.decimal row))
    ++ (d.language.toList.map fun language => ("language".toList, Json.quoted language))
    ++ [("message".toList, Json.quoted d.message)]

/-- A member on a line of its own, without the line's end. -/
def member : Text × Text → Text
  | (name, value) => "    ".toList ++ Json.quoted name ++ ": ".toList ++ value

def item (d : Diagnostic) : Text :=
  "  \x7b\n".toList ++ Text.joined ",\n".toList ((members d).map member) ++ "\n  \x7d".toList

def text (ds : Diagnostics) : Text :=
  if ds.isEmpty then "[]".toList
  else "[\n".toList ++ Text.joined ",\n".toList (ds.map item) ++ "\n]".toList

end Phrasebook.Report

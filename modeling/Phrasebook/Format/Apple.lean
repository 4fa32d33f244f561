import Phrasebook.Markup
import Phrasebook.Problem

namespace Phrasebook.Apple

/-- Placeholders for a string, plain and numbered, become placeholders for an object. -/
def placeholders : List Substitution :=
  [⟨"%s".toList, "%@".toList, false⟩, ⟨"$s".toList, "$@".toList, false⟩]

/-- A text with its placeholders respelled and its markers dropped. -/
def respelled (text : Text) : Text := Markup.remove (Substitution.inTurn placeholders text)

/-- A comment, which must not contain its own end. -/
def comment (text : Text) : Except FormatFault Text :=
  if Text.contains "*/".toList (respelled text) then .error .endInComment
  else .ok ("\n/*  ".toList ++ respelled text ++ " */".toList)

def string (key value : Text) : Except FormatFault Text :=
  if '"' ∈ key then .error (.stringsKey key)
  else .ok ("\"".toList ++ key ++ "\" = \"".toList ++ respelled value ++ "\";".toList)

def frame (lines : List Text) : Text := lines.flatMap (· ++ ['\n'])

end Phrasebook.Apple

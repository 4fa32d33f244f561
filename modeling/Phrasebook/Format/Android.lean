import Phrasebook.Markup
import Phrasebook.Problem

namespace Phrasebook.Android

/-- What is escaped in every value, in this order: no later pattern occurs in an earlier
replacement. -/
def escapes : List Substitution :=
  [⟨['&'], "&amp;".toList, false⟩, ⟨['\''], "\\'".toList, false⟩, ⟨['@'], "\\@".toList, false⟩,
    ⟨"...".toList, "&#8230;".toList, false⟩]

/-- How angle brackets are written outside markup. -/
def brackets : List Substitution :=
  [⟨['<'], "&lt;".toList, false⟩, ⟨['>'], "&gt;".toList, false⟩]

/-- How the markers of markup are written. -/
def sections : List Substitution :=
  [Markup.opening "<![CDATA[".toList, Markup.closing "]]>".toList]

def escape (value : Text) : Text :=
  let escaped := Substitution.inTurn escapes value
  Substitution.inTurn (if Markup.present escaped then sections else brackets) escaped

/-- A comment, which must not contain two dashes in a row. -/
def comment (text : Text) : Except FormatFault Text :=
  if Text.contains "--".toList text then .error .dashesInComment
  else .ok ("\n    <!-- ".toList ++ text ++ " -->".toList)

/-- Characters that would end the attribute which holds the key, or the element. -/
def breaksName (c : Char) : Bool := c == '"' || c == '<' || c == '>' || c == '&'

def string (key value : Text) : Except FormatFault Text :=
  if key.any breaksName then .error (.resourceName key)
  else
    .ok ("    <string name=\"".toList ++ key ++ "\">".toList ++ escape value ++ "</string>".toList)

def frame (lines : List Text) : Text :=
  "<?xml version=\"1.0\" encoding=\"utf-8\"?>\n<resources>\n".toList
    ++ lines.flatMap (· ++ ['\n']) ++ "</resources>\n".toList

end Phrasebook.Android

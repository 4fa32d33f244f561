import Phrasebook.Text.Basic

namespace Phrasebook.LanguageCode

def subtags (code : Text) : List Text :=
  (code.map fun c => if c = '_' then '-' else c).splitOn '-'

/-- Two, three or five to eight letters. -/
def isLanguage (t : Text) : Bool :=
  2 ≤ t.length && t.length ≤ 8 && t.length != 4 && t.all Char.isAlpha

def isScript (t : Text) : Bool := t.length == 4 && t.all Char.isAlpha

/-- Two letters or three digits. -/
def isRegion (t : Text) : Bool :=
  (t.length == 2 && t.all Char.isAlpha) || (t.length == 3 && t.all Char.isDigit)

/-- Characters of ASCII other than NUL. -/
def isVisibleAscii (c : Char) : Bool := 0 < c.toNat && c.toNat < 0x80

/-- Five to eight letters and digits, or four characters: a digit and any three, or any one and
three letters and digits. -/
def isVariant (t : Text) : Bool :=
  (5 ≤ t.length && t.length ≤ 8 && t.all Char.isAlphanum) ||
    (t.length == 4 && t.all isVisibleAscii
      && (t.head?.any Char.isDigit || t.tail.all Char.isAlphanum))

/-- The subtags without one that may stand first. -/
def dropOne (test : Text → Bool) : List Text → List Text
  | [] => []
  | t :: ts => if test t then ts else t :: ts

def isWellFormed (code : Text) : Bool :=
  match subtags code with
  | [] => false
  | language :: rest =>
    isLanguage language && (dropOne isRegion (dropOne isScript rest)).all isVariant

def complaint? (code : Text) : Option Text :=
  if code.isEmpty then some "Language code cannot be empty".toList
  else if isWellFormed code then none
  else
    some ("Invalid language code format: ".toList ++ code
      ++ ". Expected valid BCP 47 language identifier".toList)

end Phrasebook.LanguageCode

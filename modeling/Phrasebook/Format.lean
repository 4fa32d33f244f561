import Phrasebook.Format.Android
import Phrasebook.Format.Apple
import Phrasebook.Format.Web
import Phrasebook.Platform

namespace Phrasebook

/-- The reserved key, in any letter case, whose value is a section comment. -/
def isHeaderKey (key : Text) : Bool := key.sameInAnyCase "header".toList

namespace Format

/-- A value as the platform wants it before it is escaped. -/
def normalized : Platform → Text → Text
  | .android, value => value.normalized
  | .ios, value => value.normalized
  | .web, value => Web.normalized value

/-- A section comment, if the platform has comments. -/
def comment : Platform → Text → Except FormatFault (Option Text)
  | .android, text => (Android.comment text).map some
  | .ios, text => (Apple.comment text).map some
  | .web, _ => .ok none

def string : Platform → (key value : Text) → Except FormatFault Text
  | .android, key, value => Android.string key value
  | .ios, key, value => Apple.string key value
  | .web, key, value => .ok (Web.string key value)

/-- The line of a document for a key and its value as the sheet has it. -/
def line (p : Platform) (key value : Text) : Except FormatFault (Option Text) :=
  if isHeaderKey key then comment p value else (string p key (normalized p value)).map some

def frame : Platform → List Text → Text
  | .android, lines => Android.frame lines
  | .ios, lines => Apple.frame lines
  | .web, lines => Web.frame lines

end Format

end Phrasebook

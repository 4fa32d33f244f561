import Phrasebook.Json.Quoted
import Phrasebook.Markup

namespace Phrasebook.Web

/-- A value without line breaks and markers, with the copyright sign for `(c)`. -/
def normalized (value : Text) : Text := Markup.remove (copyrightSign.replace value).withoutBreaks

def string (key value : Text) : Text :=
  "    ".toList ++ Json.quoted key ++ ": ".toList ++ Json.quoted value

def frame (lines : List Text) : Text :=
  if lines.isEmpty then "\x7b\n\x7d\n".toList
  else "\x7b\n".toList ++ Text.joined ",\n".toList lines ++ "\n\x7d\n".toList

end Phrasebook.Web

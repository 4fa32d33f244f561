import Phrasebook.Text.Substitution

namespace Phrasebook

def copyrightSign : Substitution := ⟨"(c)".toList, ['©'], false⟩

def escapedQuote : Substitution := ⟨['"'], ['\\', '"'], false⟩

namespace Text

def withoutBreaks (t : Text) : Text := t.filter fun c => c != '\n' && c != '\r'

/-- The form of a value that the platforms share: escaped quotes, the copyright sign for `(c)`, and
no line breaks. -/
def normalized (t : Text) : Text :=
  (Substitution.inTurn [escapedQuote, copyrightSign] t).withoutBreaks

end Text

namespace Markup

/-- The marker that begins markup, and what replaces it. -/
def opening (replacement : Text) : Substitution := ⟨"<html>".toList, replacement, true⟩

def closing (replacement : Text) : Substitution := ⟨"</html>".toList, replacement, true⟩

/-- Whether markup begins somewhere in the text. -/
def present (t : Text) : Bool := Text.contains "<html>".toList t.lower

/-- The text with all markers replaced: first those that begin markup, then those that end it. -/
def replace (first last : Text) (t : Text) : Text :=
  Substitution.inTurn [opening first, closing last] t

def remove (t : Text) : Text := replace [] [] t

end Markup

end Phrasebook

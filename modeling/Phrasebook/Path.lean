import Phrasebook.Text.Basic

/-!
# Paths

A path is text with names between slashes. Taking the parent of a path or joining two paths looks at
the text alone: an empty piece or a single dot names nothing and is passed over where a parent is
taken, but two dots are a name like any other.
-/

namespace Phrasebook

/-- A path as it was written. -/
abbrev Path := Text

namespace Path

def pieces (p : Path) : List Text := p.splitOn '/'

/-- Whether a piece names nothing. -/
def isIdle (piece : Text) : Bool := piece.isEmpty || piece == ['.']

def isAbsolute (p : Path) : Bool := p.head? == some '/'

/-- A path as seen from a base: an absolute path stays as it is. -/
def join (base p : Path) : Path :=
  if isAbsolute p then p
  else if base.isEmpty || base.getLast? == some '/' then base ++ p
  else base ++ '/' :: p

/-- What a path begins with before its first name: the root, or a dot for the working directory. -/
def anchor (p : Path) : Text :=
  if isAbsolute p then ['/'] else if (pieces p).head? == some ['.'] then ['.'] else []

/-- Pieces up to a name, that name first. -/
abbrev Stem := List Text

/-- The stems of a path, the longest first. Pieces are given last first. -/
def stemsOf : List Text → List Stem
  | [] => []
  | piece :: above => if isIdle piece then stemsOf above else (piece :: above) :: stemsOf above

/-- The stems of what comes after the anchor: one for the path itself, then one for each directory
above it, the nearest first. -/
def stems (p : Path) : List Stem := stemsOf (pieces (p.drop (anchor p).length)).reverse

def ofStem (anchor : Text) (stem : Stem) : Path := anchor ++ Text.joined ['/'] stem.reverse

/-- The path of the directory that holds a path. The root and the empty path have none. -/
def parent? (p : Path) : Option Path :=
  match stems p with
  | [] => if isAbsolute p || p.isEmpty then none else some []
  | [_] => some (anchor p)
  | _ :: above :: _ => some (ofStem (anchor p) above)

end Path

end Phrasebook

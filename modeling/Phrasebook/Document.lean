import Phrasebook.Table

/-!
# Documents

A document holds the phrases of one language in the syntax of one platform, in the order of the
table. What a phrase adds to a document depends on that phrase alone, so a phrase that cannot be
written spoils nothing but its own line. Section comments are taken from the reference language, so
they are the same in every document.
-/

namespace Phrasebook

/-- The lines of one language, before the frame is put around them. -/
structure Document where
  language : Text
  destination : Text
  lines : List Text
deriving Repr, DecidableEq

/-- A document and what was found wrong while it was made. -/
structure Rendered where
  document : Document
  diagnostics : Diagnostics
deriving Repr, DecidableEq

/-- The warning of a phrase without a key. -/
def Diagnostic.keyless (row : Nat) (language : Text) : Diagnostic :=
  { severity := .warning
    row := some row
    language := some language
    message := "Line ".toList ++ Text.decimal row
      ++ " has no key, and therefore cannot be parsed".toList }

/-- The error of a phrase that the format cannot express. -/
def Diagnostic.inexpressible (row : Nat) (language : Text) (fault : FormatFault) : Diagnostic :=
  { severity := .error
    row := some row
    language := some language
    message := "Error on line ".toList ++ Text.decimal row ++ ": ".toList
      ++ (Problem.format fault).message }

/-- What a phrase adds to a document. -/
inductive Contribution
  | nothing
  | line (text : Text)
  | trouble (diagnostic : Diagnostic)
deriving Repr, DecidableEq

namespace Contribution

def line? : Contribution → Option Text
  | .line text => some text
  | _ => none

def diagnostic? : Contribution → Option Diagnostic
  | .trouble d => some d
  | _ => none

end Contribution

namespace Document

/-- The text that a phrase has in the document of a language: a section comment is the text of the
reference language. -/
def valueIn? (reference language : Text) (p : Phrase) : Option Text :=
  (p.value? (if p.isHeader then reference else language)).filter (!·.isEmpty)

def contribution (platform : Platform) (reference language : Text) (p : Phrase) : Contribution :=
  if p.key.isEmpty then .trouble (.keyless p.row language)
  else
    match valueIn? reference language p with
    | none => .nothing
    | some value =>
      match Format.line platform p.key value with
      | .ok (some text) => .line text
      | .ok none => .nothing
      | .error fault => .trouble (.inexpressible p.row language fault)

def render (platform : Platform) (reference : Text) (table : Table) (l : Language) : Rendered :=
  let contributions := table.map (contribution platform reference l.id)
  { document :=
      { language := l.id
        destination := l.destination
        lines := contributions.filterMap Contribution.line? }
    diagnostics := contributions.filterMap Contribution.diagnostic? }

/-- The documents of all languages, in their order. -/
def renderAll (platform : Platform) (reference : Text) (table : Table)
    (languages : List Language) : List Rendered :=
  languages.map (render platform reference table)

def text (platform : Platform) (d : Document) : Text := Format.frame platform d.lines

end Document

end Phrasebook

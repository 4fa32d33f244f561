import Phrasebook.FileSystem
import Phrasebook.Language
import Phrasebook.Platform
import Phrasebook.Problem

/-!
# Project files

A project file says in tagged lines where the sheet is, which platform the documents are for, which
languages there are, and perhaps which language the section comments are taken from. Paths in it are
seen from the directory of the file. Every line is judged in order, and the first that is at fault
is reported; what is missing is found at the end.
-/

namespace Phrasebook

structure Project where
  source : Path
  platform : Platform
  languages : List Language
  reference : Option Text
deriving Repr, DecidableEq

/-- Why a file gives no text. -/
inductive ReadFault
  | system (cause : SystemError)
  | notUtf8
deriving Repr, DecidableEq

def ReadFault.message : ReadFault → Text
  | .system cause => cause.message
  | .notUtf8 => "stream did not contain valid UTF-8".toList

inductive ProjectFault
  | unreadable (path : Path) (cause : ReadFault)
  | malformedLine (line : Nat)
  | unknownDirective (line : Nat) (directive : Text)
  | repeatedDirective (line : Nat) (directive : Text)
  | malformedLanguage (line : Nat)
  | unknownPlatform (line : Nat) (name : Text)
  | remoteSource (value : Text)
  | missingSource
  | missingPlatform
  | noLanguages
deriving Repr, DecidableEq

namespace ProjectFault

def onLine (line : Nat) (message : Text) : Text :=
  "Line ".toList ++ Text.decimal line ++ ": ".toList ++ message

def message : ProjectFault → Text
  | .unreadable path cause =>
    "Cannot read config file ".toList ++ path ++ ": ".toList ++ cause.message
  | .malformedLine line => onLine line "expected `Directive: value`".toList
  | .unknownDirective line directive =>
    onLine line ("unknown directive `".toList ++ directive ++ "`".toList)
  | .repeatedDirective line directive =>
    onLine line ("`".toList ++ directive ++ "` is given more than once".toList)
  | .malformedLanguage line => onLine line "a language must be written as `id, path`".toList
  | .unknownPlatform line name => onLine line (Problem.unknownPlatform name).message
  | .remoteSource value => "Remote sources are not supported: ".toList ++ value
  | .missingSource => "No source sheet given, add a `URL:` line".toList
  | .missingPlatform => "No platform given, add a `Platform:` line".toList
  | .noLanguages => "No languages declared, add at least one `Language:` line".toList

/-- The cause beneath the fault, in words. -/
def cause? : ProjectFault → Option Text
  | .unreadable _ cause => some cause.message
  | .unknownPlatform _ name => some (Problem.unknownPlatform name).message
  | _ => none

end ProjectFault

namespace Project

/-- What has been read of a project file so far. -/
structure Draft where
  source : Option Path := none
  platform : Option Platform := none
  reference : Option Text := none
  /-- The languages, of which the last declared comes first. -/
  languages : List Language := []
deriving Repr, DecidableEq

/-- Whether a value begins with a scheme, in any letter case. -/
def hasScheme (scheme value : Text) : Bool := scheme.isPrefixOf value.lower

/-- The path of the sheet in the value of a source line. -/
def sourcePath (value : Text) : Except ProjectFault Path :=
  if hasScheme "http://".toList value || hasScheme "https://".toList value then
    .error (.remoteSource value)
  else
    let scheme := "file://".toList
    let path := if hasScheme scheme value then value.drop scheme.length else value
    if path.isEmpty then .error .missingSource else .ok path

def languageParts? (value : Text) : Option (Text × Path) :=
  match Text.cut ',' value with
  | none => none
  | some (id, path) =>
    let id := id.trim
    let path := path.trim
    if id.isEmpty || path.isEmpty || ',' ∈ path then none else some (id, path)

/-- The value of a line that may be given once. -/
def once {α : Type} (earlier : Option α) (value : α) (line : Nat) (directive : Text) :
    Except ProjectFault (Option α) :=
  if earlier.isSome then .error (.repeatedDirective line directive) else .ok (some value)

/-- A line with a directive and its value. -/
def Draft.obey (d : Draft) (base : Path) (line : Nat) (directive value : Text) :
    Except ProjectFault Draft :=
  let name := directive.lower
  if name == "url".toList then
    match sourcePath value with
    | .error fault => .error fault
    | .ok path =>
      (once d.source (base.join path) line directive).map fun source => { d with source := source }
  else if name == "platform".toList then
    match Platform.ofName? value with
    | none => .error (.unknownPlatform line (Platform.canonical value))
    | some p =>
      (once d.platform p line directive).map fun platform => { d with platform := platform }
  else if name == "reference".toList then
    (once d.reference value line directive).map fun reference => { d with reference := reference }
  else if name == "language".toList then
    match languageParts? value with
    | none => .error (.malformedLanguage line)
    | some (id, path) =>
      .ok { d with languages := { id := id, destination := base.join path } :: d.languages }
  else .error (.unknownDirective line directive)

/-- A line of the file. An empty line and a comment say nothing. -/
def Draft.addLine (d : Draft) (base : Path) (line : Nat) (text : Text) :
    Except ProjectFault Draft :=
  let text := text.trim
  if text.isEmpty || text.head? == some '#' then .ok d
  else
    match Text.cut ':' text with
    | none => .error (.malformedLine line)
    | some (directive, value) => d.obey base line directive.trim value.trim

/-- Lines of the file, the first of which has the given number. -/
def Draft.addLines (base : Path) : (line : Nat) → Draft → List Text → Except ProjectFault Draft
  | _, d, [] => .ok d
  | line, d, text :: texts =>
    match d.addLine base line text with
    | .error fault => .error fault
    | .ok d => Draft.addLines base (line + 1) d texts

/-- The project that has been read, if nothing is missing. -/
def Draft.finish (d : Draft) : Except ProjectFault Project :=
  match d.source with
  | none => .error .missingSource
  | some source =>
    match d.platform with
    | none => .error .missingPlatform
    | some platform =>
      if d.languages.isEmpty then .error .noLanguages
      else
        .ok
          { source := source
            platform := platform
            languages := d.languages.reverse
            reference := d.reference }

/-- The project that a text describes, with paths seen from a base. -/
def parse (text : Text) (base : Path) : Except ProjectFault Project :=
  match Draft.addLines base 1 {} (text.splitOn '\n') with
  | .error fault => .error fault
  | .ok d => d.finish

def readText (fs : FileSystem) (path : Path) : Except ReadFault Text :=
  match fs.read path with
  | .error e => .error (.system e)
  | .ok bytes =>
    match Utf8.decode bytes with
    | .error _ => .error .notUtf8
    | .ok text => .ok text

/-- The project of a file, with paths seen from its directory. -/
def load (fs : FileSystem) (path : Path) : Except ProjectFault Project :=
  match readText fs path with
  | .error cause => .error (.unreadable path cause)
  | .ok text => parse text (path.parent?.getD [])

end Project

end Phrasebook

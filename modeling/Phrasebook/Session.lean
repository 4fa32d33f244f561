import Phrasebook.Keys
import Phrasebook.Publication

/-!
# Sessions

A session makes documents for one platform and one list of languages, from any number of sheets. To
prepare a sheet begins a new run: what was recorded for an earlier sheet is forgotten. A table is
handed out only after all of its keys have been checked, so a problem of the sheet is known before
anything is rendered or written.
-/

namespace Phrasebook

structure Options where
  /-- The language whose texts are the section comments of every document. -/
  reference : Text := "en".toList
  sheet : SheetOptions := {}
  strictKeys : Bool := false
  reportMissing : Bool := false
  filterPlatforms : Bool := true
  /-- Documents may be rendered side by side. They are the same either way. -/
  parallel : Bool := true
deriving Repr, DecidableEq

/-- A session and what it has recorded in its latest run. -/
structure Session where
  platform : Platform
  languages : List Language
  options : Options := {}
  events : List Event := []
deriving Repr, DecidableEq

/-- A sheet made ready: the languages as it bound them, what was recorded, and the table. -/
structure Preparation where
  languages : List Language
  events : List Event
  table : Except Problem Table

namespace Session

/-- The first text that is among those before it. -/
def firstRepeated (earlier : List Text) : List Text → Option Text
  | [] => none
  | id :: ids => if id ∈ earlier then some id else firstRepeated (id :: earlier) ids

/-- A new session, for languages of which there is at least one and none twice. -/
def new (platform : Platform) (languages : List Language) : Except Problem Session :=
  if languages.isEmpty then .error .noLanguages
  else
    match firstRepeated [] (languages.map (·.id)) with
    | some id => .error (.duplicateLanguage id)
    | none => .ok { platform := platform, languages := languages }

def diagnostics (s : Session) : Diagnostics := diagnosticsOf s.events

def tableOptions (s : Session) (column : Option Nat) : TableOptions :=
  { filter :=
      if s.options.filterPlatforms then column.map fun c => { column := c, platform := s.platform }
      else none
    reportMissing := s.options.reportMissing
    reference := s.options.reference }

/-- Reads a sheet, binds the languages, makes the table and checks its keys. -/
def preparation (s : Session) (bytes : Bytes) : Preparation :=
  match Sheet.read s.options.sheet bytes with
  | .error p => ⟨s.languages, [], .error p⟩
  | .ok sheet =>
    let languages := s.languages.map (·.bind sheet.header)
    match platformsColumn sheet.header languages with
    | .error p => ⟨languages, [], .error p⟩
    | .ok column =>
      match Table.ofRows (s.tableOptions column) languages sheet.rows with
      | (events, .error p) => ⟨languages, events, .error p⟩
      | (events, .ok table) =>
        ⟨languages, events ++ [.builtTable table.length],
          (Keys.check s.options.strictKeys table).map fun _ => table⟩

/-- What is recorded of a result: its problem, if it has one. -/
def problemEvents {α : Type} : Except Problem α → List Event
  | .error p => [.noted p.diagnostic]
  | .ok _ => []

/-- A new run on a sheet, which gives its table. -/
def prepare (s : Session) (bytes : Bytes) : Session × Except Problem Table :=
  let r := s.preparation bytes
  ({ s with languages := r.languages, events := r.events ++ problemEvents r.table }, r.table)

def record (s : Session) (events : List Event) : Session := { s with events := s.events ++ events }

/-- The documents of a table as they are rendered in this session. -/
def rendered (s : Session) (table : Table) : List Rendered :=
  Document.renderAll s.platform s.options.reference table s.languages

/-- The documents of a table; what was found wrong with them is recorded. -/
def render (s : Session) (table : Table) : Session × List Document :=
  let documents := s.rendered table
  (s.record (documents.flatMap fun r => r.diagnostics.map .noted), documents.map (·.document))

def publish (s : Session) (fs : FileSystem) (table : Table) :
    Session × FileSystem × Except Problem (List Path) :=
  let p := Publication.publish (Format.frame s.platform) fs (s.rendered table)
  (s.record p.events, p.files, p.result)

/-- A new run from the bytes of a sheet to its written documents. -/
def compile (s : Session) (fs : FileSystem) (bytes : Bytes) :
    Session × FileSystem × Except Problem (List Path) :=
  match s.prepare bytes with
  | (s, .error p) => (s, fs, .error p)
  | (s, .ok table) =>
    match s.publish fs table with
    | (s, fs, .ok written) => (s.record [.completed written.length], fs, .ok written)
    | failed => failed

/-- A run that ends before a sheet is read. -/
def abandon (s : Session) (p : Problem) : Session := { s with events := [.noted p.diagnostic] }

/-- A new run from a stored sheet to its written documents. A directory can be opened, but not
read. -/
def compileFile (s : Session) (fs : FileSystem) (path : Path) :
    Session × FileSystem × Except Problem (List Path) :=
  match fs.find path with
  | .ok (.file bytes) => s.compile fs bytes
  | .ok .directory =>
    let p := Problem.malformedSheet (.unreadable .isADirectory)
    (s.abandon p, fs, .error p)
  | .error e => (s.abandon (.unreadable e), fs, .error (.unreadable e))

end Session

end Phrasebook

import Phrasebook.Command.Invocation
import Phrasebook.LanguageCode
import Phrasebook.Log
import Phrasebook.PathCheck
import Phrasebook.Project
import Phrasebook.Report
import Phrasebook.Session

/-!
# Running a command

What a request does to a file system, what it prints and logs, and how it ends. Directories and
documents are made only after the sheet has passed every check; the report is written whether or
not the run went well, and a report that cannot be written is a failure that takes the place of the
one before.
-/

namespace Phrasebook.Command

inductive Failure
  /-- The problem is in the log already, as a diagnostic. -/
  | reported
  | message (text : Text)
deriving Repr, DecidableEq

structure Run where
  files : FileSystem
  log : List LogLine := []
  printed : Text := []
  failure : Option Failure := none
deriving Repr, DecidableEq

namespace Run

/-- A run that did nothing but log some lines, and failed. -/
def failed (fs : FileSystem) (log : List LogLine) (message : Text) : Run :=
  { files := fs, log := log, failure := some (.message message) }

/-- The line of the failure, unless it is in the log already. -/
def failureLines (r : Run) : List LogLine :=
  match r.failure with
  | some (.message text) => [{ level := .error, message := text }]
  | _ => []

def exitCode (r : Run) : Nat := if r.failure.isSome then 1 else 0

end Run

/-- A warning for each language whose name is no language code. -/
def codeWarnings (ids : List Text) : List LogLine :=
  (ids.filterMap LanguageCode.complaint?).map fun complaint =>
    { level := .warn, message := complaint }

/-- What a session has recorded, as lines of the log. -/
def logOf (s : Session) : List LogLine := s.events.map (·.logLine)

/-- The platform that a request names, or else the given one. -/
def choosePlatform (name : Option Text) (otherwise : Platform) : Except Problem Platform :=
  match name with
  | none => .ok otherwise
  | some name =>
    match Platform.ofName? name with
    | some p => .ok p
    | none => .error (.unknownPlatform (Platform.canonical name))

def inputMessage (fault : PathFault) : Text := "Input validation failed: ".toList ++ fault.message

def openMessage (path : Path) (cause : SystemError) : Text :=
  "Cannot open ".toList ++ path ++ ": ".toList ++ cause.message

/-- The line for a document that a dry run does not write. -/
def wouldWrite (platform : Platform) (d : Document) : LogLine :=
  { level := .info
    message := "Would write ".toList ++ d.language ++ " (".toList ++ Text.decimal d.lines.length
      ++ " lines, ".toList ++ Text.decimal (Utf8.encode (d.text platform)).length
      ++ " bytes) to file: ".toList ++ d.destination }

/-- Makes the directories of all destinations, up to the first language whose destination cannot be
used. -/
def checkDestinations (fs : FileSystem) :
    List Language → FileSystem × Option (Language × PathFault)
  | [] => (fs, none)
  | l :: ls =>
    match fs.checkOutput l.destination with
    | (fs, .ok ()) => checkDestinations fs ls
    | (fs, .error fault) => (fs, some (l, fault))

/-- Makes the directories of all outputs and writes the documents of a table. -/
def writeDocuments (fs : FileSystem) (s : Session) (table : Table) : Session × Run :=
  match checkDestinations fs s.languages with
  | (fs, some (l, fault)) =>
    (s, .failed fs (logOf s)
      ("Output validation failed for ".toList ++ l.id ++ ": ".toList ++ fault.message))
  | (fs, none) =>
    match s.publish fs table with
    | (s, fs, .error p) => (s, .failed fs (logOf s) p.message)
    | (s, fs, .ok written) =>
      (s, { files := fs, log := logOf s ++ [(Event.completed written.length).logLine] })

/-- Renders the documents of a table and says what would be written. -/
def describeDocuments (fs : FileSystem) (s : Session) (table : Table) : Session × Run :=
  let (s, documents) := s.render table
  (s, { files := fs, log := logOf s ++ documents.map (wouldWrite s.platform) })

/-- Makes the documents of a sheet. -/
def produce (fs : FileSystem) (s : Session) (source : Path) (dryRun : Bool) : Session × Run :=
  match fs.read source with
  | .error cause => (s, .failed fs [] (openMessage source cause))
  | .ok bytes =>
    match s.prepare bytes with
    | (s, .error _) => (s, { files := fs, log := logOf s, failure := some .reported })
    | (s, .ok table) => if dryRun then describeDocuments fs s table else writeDocuments fs s table

/-- Writes the report of a run, if one is asked for. -/
def writeReport (path : Option Path) (ds : Diagnostics) (r : Run) : Run :=
  match path with
  | none => r
  | some path =>
    match r.files.write path (Utf8.encode (Report.text ds ++ ['\n'])) with
    | .error cause =>
      { r with
        failure := some (.message ("Cannot write report to ".toList ++ path ++ ": ".toList
          ++ cause.message)) }
    | .ok fs =>
      { r with
        files := fs
        log := r.log ++ [⟨.debug, "wrote diagnostics report".toList, [("path", path)]⟩] }

def projectMessage (fault : ProjectFault) : Text :=
  match fault.cause? with
  | some cause => fault.message ++ ": ".toList ++ cause
  | none => fault.message

def compilingLine (languages : Nat) (platform : Platform) (source : Path) : LogLine :=
  ⟨.info, "Compiling ".toList ++ Text.decimal languages ++ " language(s)".toList,
    [("platform", platform.name), ("source", source)]⟩

/-- Compiles a project. -/
def compile (fs : FileSystem) (r : CompileRequest) : Run :=
  match Project.load fs r.project with
  | .error fault => .failed fs [] (projectMessage fault)
  | .ok project =>
    match choosePlatform r.platform project.platform with
    | .error p => .failed fs [] p.message
    | .ok platform =>
      let source := r.input.getD project.source
      match fs.checkInput source with
      | .error fault => .failed fs [] (inputMessage fault)
      | .ok () =>
        let log := codeWarnings (project.languages.map (·.id))
          ++ [compilingLine project.languages.length platform source]
        match Session.new platform project.languages with
        | .error p => .failed fs log p.message
        | .ok s =>
          let options : Options :=
            { reference := project.reference.getD "en".toList
              strictKeys := r.strictKeys
              reportMissing := r.reportMissing
              parallel := !r.sequential }
          let (s, run) := produce fs { s with options := options } source r.dryRun
          writeReport r.report s.diagnostics { run with log := log ++ run.log }

/-- Checks a sheet. Without a platform, the rows of every platform are kept. -/
def check (fs : FileSystem) (r : CheckRequest) : Run :=
  match fs.checkInput r.input with
  | .error fault => .failed fs [] (inputMessage fault)
  | .ok () =>
    let log := codeWarnings r.languages
    match choosePlatform r.platform .android with
    | .error p => .failed fs log p.message
    | .ok platform =>
      match Session.new platform (r.languages.map fun id => { id := id, destination := [] }) with
      | .error p => .failed fs log p.message
      | .ok s =>
        let options : Options :=
          { strictKeys := r.strictKeys, filterPlatforms := r.platform.isSome }
        match fs.read r.input with
        | .error cause => .failed fs log (openMessage r.input cause)
        | .ok bytes =>
          match { s with options := options }.prepare bytes with
          | (s, .error _) => { files := fs, log := log ++ logOf s, failure := some .reported }
          | (s, .ok table) =>
            { files := fs
              log := log ++ logOf s
              printed := r.input ++ ": ".toList ++ Text.decimal table.length
                ++ " entries, ".toList ++ Text.decimal s.diagnostics.warnings.length
                ++ " warning(s)\n".toList }

def Request.run (fs : FileSystem) : Request → Run
  | .compile r => Command.compile fs r
  | .check r => Command.check fs r

/-- Does what an invocation asks for, and shows the part of the log that it wants. -/
def Invocation.run (fs : FileSystem) (i : Invocation) : Run :=
  let r := i.request.run fs
  { r with log := shownLines i.verbose (r.log ++ r.failureLines) }

end Phrasebook.Command

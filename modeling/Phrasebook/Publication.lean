import Phrasebook.Document
import Phrasebook.FileSystem

/-!
# Publication

Documents are written one after the other, each to its own destination. One that cannot be written
is reported and passed over; those written before and after it stay.
-/

namespace Phrasebook

structure Publication where
  files : FileSystem
  events : List Event
  written : List Path
  /-- The languages whose documents could not be written, in order. -/
  failed : List Text
deriving Repr, DecidableEq

/-- The error of a document that cannot be written. -/
def Diagnostic.unwritten (d : Document) (cause : SystemError) : Diagnostic :=
  { severity := .error
    language := some d.language
    message := (Problem.write d.language d.destination cause).message }

namespace Publication

/-- Writes documents in their order, each in the frame of their format, after recording what was
found wrong with it. -/
def publish (frame : List Text → Text) (fs : FileSystem) : List Rendered → Publication
  | [] => ⟨fs, [], [], []⟩
  | r :: rest =>
    let d := r.document
    let noted := r.diagnostics.map Event.noted
    match fs.write d.destination (Utf8.encode (frame d.lines)) with
    | .ok fs =>
      let p := publish frame fs rest
      { p with
        events := noted ++ .wrote d.language d.destination :: p.events
        written := d.destination :: p.written }
    | .error cause =>
      let p := publish frame fs rest
      { p with
        events := noted ++ .noted (.unwritten d cause) :: p.events
        failed := d.language :: p.failed }

/-- The destinations written, if nothing failed. -/
def result (p : Publication) : Except Problem (List Path) :=
  if p.failed.isEmpty then .ok p.written else .error (.incomplete p.failed)

end Publication

end Phrasebook

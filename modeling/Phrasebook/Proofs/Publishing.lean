import Phrasebook.Proofs.FilePaths
import Phrasebook.Publication

/-!
# The turns of documents

Documents are written one after the other, and each finds the files as those before it have left
them. That is its turn: it succeeds, or it fails and leaves everything to the next one as it was.
What a publication gives back, records and leaves in the files is read off the turns
(`publish_eq`), and each turn counts by itself; of several that write one file, the last one's
document stays in it (`node?_publish`).
-/

namespace Phrasebook

/-- A document, and what came of writing it to the files as they were then. -/
structure Turn where
  rendered : Rendered
  outcome : Except SystemError FileSystem

namespace Turn

def document (t : Turn) : Document := t.rendered.document

def succeeded (t : Turn) : Bool := t.outcome.isOk

def failure? (t : Turn) : Option Diagnostic :=
  match t.outcome with
  | .ok _ => none
  | .error cause => some (.unwritten t.document cause)

/-- The diagnostics of the turn: first what was found wrong while the document was made. -/
def diagnostics (t : Turn) : Diagnostics := t.rendered.diagnostics ++ t.failure?.toList

def events (t : Turn) : List Event :=
  t.rendered.diagnostics.map .noted ++
    match t.failure? with
    | none => [.wrote t.document.language t.document.destination]
    | some d => [.noted d]

/-- The files after the turn, if they were `fs` before it. -/
def leaves (fs : FileSystem) (t : Turn) : FileSystem := t.outcome.toOption.getD fs

def wrote (fs : FileSystem) (l : Location) (t : Turn) : Bool :=
  t.succeeded && fs.fileAt? t.document.destination == some l

theorem diagnosticsOf_events (t : Turn) : diagnosticsOf t.events = t.diagnostics := by
  rw [events, diagnosticsOf_append, diagnosticsOf_map_noted, diagnostics]
  cases t.failure? <;> rfl

theorem failure?_eq_none {t : Turn} : t.failure? = none ↔ t.succeeded = true := by
  unfold failure? succeeded
  cases t.outcome <;> simp [Except.isOk, Except.toBool]

theorem isError_of_failure {t : Turn} {d : Diagnostic} (h : t.failure? = some d) :
    d.isError = true ∧ d.language = some t.document.language := by
  unfold failure? at h
  split at h
  · cases h
  · obtain rfl := Option.some.inj h
    exact ⟨rfl, rfl⟩

end Turn

namespace Publication

/-- The turn of a document that finds the files `fs`. -/
def turn (frame : List Text → Text) (fs : FileSystem) (r : Rendered) : Turn :=
  ⟨r, fs.write r.document.destination (Utf8.encode (frame r.document.lines))⟩

def turns (frame : List Text → Text) (fs : FileSystem) : List Rendered → List Turn
  | [] => []
  | r :: rest =>
    let t := turn frame fs r
    t :: turns frame (t.leaves fs) rest

/-- The last of some turns that wrote the file at a location. -/
def lastAt? (fs : FileSystem) (l : Location) (turns : List Turn) : Option Turn :=
  (turns.filter (·.wrote fs l)).getLast?

variable (frame : List Text → Text) (fs : FileSystem) (documents : List Rendered)

theorem publish_eq :
    publish frame fs documents =
      let turns := turns frame fs documents
      { files := turns.foldl Turn.leaves fs
        events := turns.flatMap (·.events)
        written := (turns.filter (·.succeeded)).map (·.document.destination)
        failed := (turns.filter (!·.succeeded)).map (·.document.language) } := by
  induction documents generalizing fs with
  | nil => rfl
  | cons r rest ih =>
    simp only [publish, turns, turn]
    cases fs.write r.document.destination (Utf8.encode (frame r.document.lines)) with
    | ok after =>
      simp [ih after, Turn.leaves, Turn.events, Turn.failure?, Turn.succeeded, Turn.document,
        Except.toOption, Except.isOk, Except.toBool]
    | error cause =>
      simp [ih fs, Turn.leaves, Turn.events, Turn.failure?, Turn.succeeded, Turn.document,
        Except.toOption, Except.isOk, Except.toBool]

theorem map_rendered_turns : (turns frame fs documents).map (·.rendered) = documents := by
  induction documents generalizing fs with
  | nil => rfl
  | cons r rest ih => exact congrArg (r :: ·) (ih _)

theorem diagnosticsOf_publish :
    diagnosticsOf (publish frame fs documents).events =
      (turns frame fs documents).flatMap (·.diagnostics) := by
  simp only [publish_eq, diagnosticsOf, List.filterMap_flatMap]
  congr 1
  funext t
  exact t.diagnosticsOf_events

theorem result_publish :
    (publish frame fs documents).result =
      let turns := turns frame fs documents
      if turns.all (·.succeeded) then .ok (turns.map (·.document.destination))
      else .error (.incomplete ((turns.filter (!·.succeeded)).map (·.document.language))) := by
  simp only [result, publish_eq]
  generalize turns frame fs documents = turns
  by_cases success : turns.all (·.succeeded) = true
  · have none : turns.filter (!·.succeeded) = [] := by simpa [List.filter_eq_nil_iff] using success
    have every : turns.filter (·.succeeded) = turns := by simpa [List.filter_eq_self] using success
    rw [none, every, if_pos success]
    rfl
  · have some : turns.filter (!·.succeeded) ≠ [] := by simpa [List.filter_eq_nil_iff] using success
    rw [if_neg success, if_neg]
    simpa using some

variable {frame fs documents}

/-- A turn leaves every path with the location that it had. -/
theorem fileAt?_leaves (r : Rendered) (p : Path) :
    ((turn frame fs r).leaves fs).fileAt? p = fs.fileAt? p := by
  unfold Turn.leaves turn
  cases written : fs.write r.document.destination (Utf8.encode (frame r.document.lines)) with
  | ok after => exact (FileSystem.sameBut_write written).fileAt?_eq p
  | error cause => rfl

theorem node?_leaves (r : Rendered) (l : Location) :
    ((turn frame fs r).leaves fs).node? l =
      if (turn frame fs r).wrote fs l then some (.file (Utf8.encode (frame r.document.lines)))
      else fs.node? l := by
  unfold Turn.leaves Turn.wrote Turn.succeeded turn
  cases written : fs.write r.document.destination (Utf8.encode (frame r.document.lines)) with
  | ok after => simp [Except.toOption, Except.isOk, Except.toBool, FileSystem.node?_write written,
      Turn.document]
  | error cause => rfl

/-- A file holds the document of the last turn that wrote it, and one that no turn wrote is as it
was. -/
theorem node?_publish (l : Location) :
    (publish frame fs documents).files.node? l =
      match lastAt? fs l (turns frame fs documents) with
      | some t => some (.file (Utf8.encode (frame t.document.lines)))
      | none => fs.node? l := by
  rw [publish_eq]
  dsimp only
  induction documents generalizing fs with
  | nil => rfl
  | cons r rest ih =>
    have same : lastAt? ((turn frame fs r).leaves fs) l = lastAt? fs l := by
      funext ts
      simp only [lastAt?, Turn.wrote, fileAt?_leaves]
    simp only [turns, List.foldl_cons]
    rw [ih, same, node?_leaves]
    simp only [lastAt?, List.filter_cons]
    cases (turn frame fs r).wrote fs l with
    | true =>
      simp only [if_true, List.getLast?_cons]
      cases ((turns frame ((turn frame fs r).leaves fs) rest).filter (·.wrote fs l)).getLast?
      · rfl
      · rfl
    | false => simp only [Bool.false_eq_true, if_false]

theorem fileAt?_publish (p : Path) :
    (publish frame fs documents).files.fileAt? p = fs.fileAt? p := by
  rw [publish_eq]
  dsimp only
  induction documents generalizing fs with
  | nil => rfl
  | cons r rest ih =>
    simp only [turns, List.foldl_cons]
    rw [ih, fileAt?_leaves]

theorem fileAt?_of_succeeded {t : Turn} (mem : t ∈ turns frame fs documents)
    (h : t.succeeded = true) :
    ∃ name directory, fs.fileAt? t.document.destination = some (name :: directory) ∧
      FileSystem.isTooLong name = false := by
  induction documents generalizing fs with
  | nil => cases mem
  | cons r rest ih =>
    rcases List.mem_cons.1 mem with rfl | later
    · cases written : fs.write r.document.destination
        (Utf8.encode (frame r.document.lines)) with
      | error cause => simp [Turn.succeeded, turn, written, Except.isOk, Except.toBool] at h
      | ok after =>
        obtain ⟨name, directory, place, short, -⟩ := FileSystem.fileAt?_of_write written
        exact ⟨name, directory, place, short⟩
    · obtain ⟨name, directory, place, short⟩ := ih later
      exact ⟨name, directory, (fileAt?_leaves r _).symm.trans place, short⟩

/-- Under the destination of a document that was written, the document of the last turn that wrote
the same file is read. -/
theorem read_publish {t : Turn} (mem : t ∈ turns frame fs documents)
    (h : t.succeeded = true) :
    ∃ l u, fs.fileAt? t.document.destination = some l ∧
      lastAt? fs l (turns frame fs documents) = some u ∧
      (publish frame fs documents).files.read t.document.destination =
        .ok (Utf8.encode (frame u.document.lines)) := by
  obtain ⟨name, directory, place, short⟩ := fileAt?_of_succeeded mem h
  have writers : t ∈ (turns frame fs documents).filter (·.wrote fs (name :: directory)) := by
    simp [mem, Turn.wrote, h, place]
  cases last : lastAt? fs (name :: directory) (turns frame fs documents) with
  | none =>
    rw [List.getLast?_eq_none_iff.1 last] at writers
    cases writers
  | some u =>
    refine ⟨name :: directory, u, place, last, ?_⟩
    apply FileSystem.read_of_fileAt? ((fileAt?_publish _).trans place) short
    rw [node?_publish, last]

theorem lastAt?_eq_some {l : Location} {turns : List Turn} {t : Turn}
    (h : lastAt? fs l turns = some t) :
    t ∈ turns ∧ t.succeeded = true ∧ fs.fileAt? t.document.destination = some l := by
  have writer := List.mem_filter.1 (List.mem_of_getLast? h)
  simpa [Turn.wrote] using writer

/-- What a publication for some languages comes to when each turn counts by itself. -/
structure Isolates (frame : List Text → Text) (fs : FileSystem) (languages : List Language)
    (turns : List Turn) (p : Publication) : Prop where
  visited : turns.map (fun t => (t.document.language, t.document.destination)) =
    languages.map (fun l => (l.id, l.destination))
  result : p.result =
    if turns.all (·.succeeded) then .ok (languages.map (·.destination))
    else .error (.incomplete ((turns.filter (!·.succeeded)).map (·.document.language)))
  recorded : diagnosticsOf p.events =
    turns.flatMap fun t => t.rendered.diagnostics ++ t.failure?.toList
  /-- Just the turns that fail have an error, and it is about their language. -/
  blamed : ∀ t ∈ turns, (t.failure? = none ↔ t.succeeded = true) ∧
    ∀ d, t.failure? = some d → d.isError = true ∧ d.language = some t.document.language
  stored : ∀ l t, lastAt? fs l turns = some t →
    p.files.node? l = some (.file (Utf8.encode (frame t.document.lines)))
  untouched : ∀ l, lastAt? fs l turns = none → p.files.node? l = fs.node? l

/-- Of a publication no more is needed than whose documents there are. -/
theorem isolates_publish {languages : List Language}
    (named : documents.map (fun r => (r.document.language, r.document.destination)) =
      languages.map (fun l => (l.id, l.destination))) :
    Isolates frame fs languages (turns frame fs documents) (publish frame fs documents) := by
  have declared : (turns frame fs documents).map
      (fun t => (t.document.language, t.document.destination)) =
      languages.map (fun l => (l.id, l.destination)) := by
    rw [← map_rendered_turns frame fs documents, List.map_map] at named
    exact named
  refine ⟨declared, ?result, ?recorded, ?blamed, ?stored, ?untouched⟩
  case result =>
    have destinations := congrArg (List.map Prod.snd) declared
    rw [List.map_map, List.map_map] at destinations
    rw [result_publish]
    dsimp only
    rw [show (turns frame fs documents).map (·.document.destination) = _ from destinations]
    rfl
  case recorded => exact diagnosticsOf_publish frame fs documents
  case blamed => exact fun t _ => ⟨Turn.failure?_eq_none, fun d => Turn.isError_of_failure⟩
  case stored =>
    intro l t last
    rw [node?_publish, last]
  case untouched =>
    intro l last
    rw [node?_publish, last]

/-- **A document that cannot be written spoils no other.** Whatever their format puts around the
lines, the languages have their turns in the order in which they are declared. Each turn that fails
is reported by one error in its place; a file that was written keeps the document of the last turn
that wrote it, and all else is as it was. -/
theorem write_failures_isolated (frame : List Text → Text) (platform : Platform) (reference : Text)
    (table : Table) (languages : List Language) (fs : FileSystem) :
    let documents := Document.renderAll platform reference table languages
    let turns := turns frame fs documents
    turns.map (·.rendered) = documents ∧
      Isolates frame fs languages turns (publish frame fs documents) := by
  intro documents turns
  have named : documents.map (fun r => (r.document.language, r.document.destination)) =
      languages.map (fun l => (l.id, l.destination)) := List.map_map ..
  exact ⟨map_rendered_turns frame fs documents, isolates_publish named⟩

/-- A document may fail for what another has done: the first one is a file where the second one
needs a directory. -/
example :
    let en : Document := { language := "en".toList, destination := "d".toList, lines := [] }
    let fr : Document := { language := "fr".toList, destination := "d/fr".toList, lines := [] }
    (publish Apple.frame { home := [] } [⟨en, []⟩, ⟨fr, []⟩]).failed = [fr.language] := by
  decide +kernel

end Publication

end Phrasebook

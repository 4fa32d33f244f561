import Phrasebook.FileSystem.Tree
import Phrasebook.Path
import Phrasebook.SystemError

/-!
# File systems

A file system is a tree of directories and files with a working directory in it, and a path is
followed from there piece by piece: every piece, the empty one and the dot too, asks for a directory
to stand in. Files are created or overwritten as a whole, directories one at a time. Names and paths
have a greatest length, and no path holds the character NUL. `at?_location` says that following a
path leads to what is at the location where it ends.
-/

namespace Phrasebook

/-- The way to a place: each name on it with the entry under that name, the last first. -/
abbrev Trail := List (Text × Entry)

namespace Trail

def location (t : Trail) : Location := t.map (·.1)

/-- The entry that a trail from a root leads to. -/
def entry (root : Tree) : Trail → Entry
  | [] => .directory root
  | (_, e) :: _ => e

/-- A trail that lies in a tree: each name on it stands in the directory before it. -/
def LiesIn (root : Tree) : Trail → Prop
  | [] => True
  | (name, e) :: t =>
    LiesIn root t ∧ ∃ inside, entry root t = .directory inside ∧ inside.find? name = some e

theorem at?_location {root : Tree} {t : Trail} (h : t.LiesIn root) :
    root.at? t.location.reverse = some (t.entry root) := by
  induction t with
  | nil => rfl
  | cons step t ih =>
    obtain ⟨name, e⟩ := step
    obtain ⟨below, inside, hentry, hfind⟩ := h
    have hat := ih below
    simp only [location, List.map_cons, List.reverse_cons] at hat ⊢
    rw [Tree.at?_append_singleton, hat, hentry]
    exact hfind

theorem LiesIn.tail {root : Tree} {t : Trail} (h : t.LiesIn root) : Trail.LiesIn root t.tail := by
  cases t with
  | nil => exact h
  | cons step t => exact h.1

end Trail

structure FileSystem where
  /-- The location of the working directory. -/
  home : Location
  root : Tree := .empty
deriving Repr, DecidableEq

/-- Where a file or directory of a given path would be made. -/
inductive Target
  /-- The path ends in a place that is there already. -/
  | here
  /-- A name in a directory; a slash may follow it. -/
  | child (directory : Trail) (name : Text) (slash : Bool)
deriving Repr, DecidableEq

namespace FileSystem

def node? (fs : FileSystem) (l : Location) : Option Node := fs.root.node? l.reverse

/-- What the directory at a location holds. -/
def treeAt (fs : FileSystem) (l : Location) : Tree :=
  match fs.root.at? l.reverse with
  | some (.directory inside) => inside
  | _ => .empty

/-- Whether a name has more bytes than a directory takes. -/
def isTooLong (name : Text) : Bool := 255 < (Utf8.encode name).length

/-- Why a path is not followed at all, if so. -/
def refusal? (p : Path) : Option SystemError :=
  if p.any (· == '\x00') then some .nulInPath
  else if p.isEmpty then some .notFound
  else if 4095 < (Utf8.encode p).length then some .nameTooLong
  else none

/-- The trail one piece further. Two dots lead up, and not beyond the root. -/
def step (fs : FileSystem) (t : Trail) (piece : Text) : Except SystemError Trail :=
  match t.entry fs.root with
  | .file _ => .error .notADirectory
  | .directory inside =>
    if Path.isIdle piece then .ok t
    else if piece == "..".toList then .ok t.tail
    else if isTooLong piece then .error .nameTooLong
    else
      match inside.find? piece with
      | some e => .ok ((piece, e) :: t)
      | none => .error .notFound

def walk (fs : FileSystem) (t : Trail) : List Text → Except SystemError Trail
  | [] => .ok t
  | piece :: pieces =>
    match fs.step t piece with
    | .ok next => fs.walk next pieces
    | .error e => .error e

/-- Where a path begins. -/
def start (fs : FileSystem) (p : Path) : Location := if p.isAbsolute then [] else fs.home

/-- The trail from the root along pieces that are seen from where a path begins. -/
def follow (fs : FileSystem) (p : Path) (pieces : List Text) : Except SystemError Trail :=
  fs.walk [] ((fs.start p).reverse ++ pieces)

def locate (fs : FileSystem) (p : Path) : Except SystemError Trail :=
  match refusal? p with
  | some e => .error e
  | none => fs.follow p p.pieces

def find (fs : FileSystem) (p : Path) : Except SystemError Node :=
  (fs.locate p).map fun t => (t.entry fs.root).node

def pathExists (fs : FileSystem) (p : Path) : Bool := (fs.find p).isOk

def isFile (fs : FileSystem) (p : Path) : Bool :=
  match fs.find p with
  | .ok (.file _) => true
  | _ => false

def isDirectory (fs : FileSystem) (p : Path) : Bool :=
  match fs.find p with
  | .ok .directory => true
  | _ => false

def read (fs : FileSystem) (p : Path) : Except SystemError Bytes :=
  match fs.find p with
  | .ok (.file content) => .ok content
  | .ok .directory => .error .isADirectory
  | .error e => .error e

/-- Where something of a given path would be made. All but the last name must be there. -/
def target (fs : FileSystem) (p : Path) : Except SystemError Target :=
  match refusal? p with
  | some e => .error e
  | none =>
    match p.pieces.reverse.dropWhile List.isEmpty with
    | [] => .ok .here
    | last :: above =>
      match fs.follow p (above.reverse ++ [[]]) with
      | .error e => .error e
      | .ok directory =>
        if Path.isIdle last || last == "..".toList then .ok .here
        else .ok (.child directory last (p.getLast? == some '/'))

/-- The tree with a new node at a location. The directory above it has to be there. -/
def putNode (fs : FileSystem) (l : Location) (node : Node) : FileSystem :=
  { fs with root := fs.root.put node.entry l.reverse }

/-- The tree with a file written: created if it is not there, else overwritten. -/
def write (fs : FileSystem) (p : Path) (content : Bytes) : Except SystemError FileSystem :=
  match fs.target p with
  | .error e => .error e
  | .ok .here => .error .isADirectory
  | .ok (.child directory name slash) =>
    let l := name :: directory.location
    if slash then .error .isADirectory
    else if isTooLong name then .error .nameTooLong
    else if fs.node? l = some .directory then .error .isADirectory
    else .ok (fs.putNode l (.file content))

def makeDirectory (fs : FileSystem) (p : Path) : Except SystemError FileSystem :=
  match fs.target p with
  | .error e => .error e
  | .ok .here => .error .alreadyExists
  | .ok (.child directory name _) =>
    let l := name :: directory.location
    if isTooLong name then .error .nameTooLong
    else if (fs.node? l).isSome then .error .alreadyExists
    else .ok (fs.putNode l .directory)

/-- The tree after making a directory was tried: a directory that is there already is as good as a
new one. -/
def settled (fs : FileSystem) (p : Path) :
    Except SystemError FileSystem → FileSystem × Except SystemError Unit
  | .ok made => (made, .ok ())
  | .error e => (fs, if fs.isDirectory p then .ok () else .error e)

/-- Makes the directory of the first of some stems, and before it those of the stems after it that
it needs. What has been made stays when a later step fails. -/
def makeAll (fs : FileSystem) (anchor : Text) :
    List Path.Stem → FileSystem × Except SystemError Unit
  | [] => (fs, .ok ())
  | stem :: above =>
    let p := Path.ofStem anchor stem
    match fs.makeDirectory p with
    | .error .notFound =>
      match fs.makeAll anchor above with
      | (made, .ok ()) => made.settled p (made.makeDirectory p)
      | failed => failed
    | result => fs.settled p result

/-- Makes a directory and those above it. -/
def makeDirectories (fs : FileSystem) (p : Path) : FileSystem × Except SystemError Unit :=
  fs.makeAll p.anchor p.stems

def absolute (l : Location) : Path := '/' :: Text.joined ['/'] l.reverse

/-- What is in the whole tree that was not in it before, or was different. -/
def differences (fs before : FileSystem) : List (Location × Node) :=
  Tree.changes [] before.root fs.root

/-- What the working directory holds that it did not hold before, or held differently. -/
def changesSince (fs before : FileSystem) : List (Path × Node) :=
  (Tree.changes [] (before.treeAt fs.home) (fs.treeAt fs.home)).map fun (l, node) =>
    (Text.joined ['/'] l.reverse, node)

theorem walk_liesIn {fs : FileSystem} {t u : Trail} {pieces : List Text}
    (h : t.LiesIn fs.root) (hw : fs.walk t pieces = .ok u) : u.LiesIn fs.root := by
  induction pieces generalizing t with
  | nil => simp_all [walk]
  | cons piece pieces ih =>
    simp only [walk] at hw
    split at hw
    · rename_i next hstep
      refine ih ?_ hw
      unfold step at hstep
      split at hstep
      · cases hstep
      · rename_i inside hentry
        repeat' split at hstep
        · cases hstep; exact h
        · cases hstep; exact h.tail
        · cases hstep
        · cases hstep; exact ⟨h, inside, hentry, by assumption⟩
        · cases hstep
    · cases hw

theorem node?_putNode (fs : FileSystem) (name : Text) (directory : Location) (node : Node)
    (above : fs.node? directory = some .directory)
    (free : fs.node? (name :: directory) ≠ some .directory) (other : Location) :
    (fs.putNode (name :: directory) node).node? other =
      if name :: directory = other then some node else fs.node? other := by
  have same : directory.reverse ++ [name] = other.reverse ↔ name :: directory = other := by
    rw [← List.reverse_cons, List.reverse_inj]
  simp only [node?, putNode, List.reverse_cons] at above free ⊢
  rw [Tree.node?_put node (by simp) fs.root (by simpa using above) free]
  simp only [same]

end FileSystem

end Phrasebook

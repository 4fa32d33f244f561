import Phrasebook.Command.Footprint
import Phrasebook.Command.Run

/-!
# The program

Looks at the files that the command line is about, runs the command on them, and makes the changes
that it asks for. All decisions are taken by the pure command; only the paths it can touch are
looked at.
-/

namespace Phrasebook.Command

/-- What is at a location on disk. -/
def nodeOnDisk (l : Location) : IO (Option Node) := do
  let path := (← IO.currentDir) / String.ofList (FileSystem.absolute l)
  if ← path.isDir then return some .directory
  else if ← path.pathExists then return some (.file (← IO.FS.readBinFile path).toList)
  else return none

/-- Looks at every place on the way along some pieces, as far as there is anything. -/
def lookAlong (fs : FileSystem) (l : Location) : List Text → IO FileSystem
  | [] => return fs
  | piece :: pieces => do
    if Path.isIdle piece then lookAlong fs l pieces
    else if piece == "..".toList then lookAlong fs l.tail pieces
    else
      match ← nodeOnDisk (piece :: l) with
      | none => return fs
      | some node =>
        let known := fs.node? (piece :: l) == some node
        lookAlong (if known then fs else fs.putNode (piece :: l) node) (piece :: l) pieces

/-- Looks at everything on the way to some paths. -/
def lookAt (fs : FileSystem) (paths : List Path) : IO FileSystem :=
  paths.foldlM (fun fs p => lookAlong fs (fs.start p) p.pieces) fs

/-- The working directory, before anything in it has been looked at. -/
def workingDirectory : IO FileSystem := do
  let pieces := (Path.pieces (← IO.currentDir).toString.toList).filter (!·.isEmpty)
  lookAlong { home := pieces.reverse } [] pieces

def apply (changes : List (Location × Node)) : IO Unit :=
  changes.forM fun (l, node) =>
    let path := String.ofList (FileSystem.absolute l)
    match node with
    | .directory => IO.FS.createDirAll path
    | .file content => IO.FS.writeBinFile path ⟨content.toArray⟩

end Phrasebook.Command

open Phrasebook Phrasebook.Command in
def main (arguments : List String) : IO UInt32 := do
  match Invocation.ofArguments? (arguments.map String.toList) with
  | none =>
    IO.eprintln "wrong usage"
    return 2
  | some i =>
    let home ← workingDirectory
    let named ← lookAt home (i.request.footprint home)
    let fs ← lookAt named (i.request.footprint named)
    let r := i.run fs
    apply (r.files.differences fs)
    for line in r.log do
      IO.eprintln (String.ofList (line.level.name ++ ' ' :: line.text))
    IO.print (String.ofList r.printed)
    return r.exitCode.toUInt32

import Phrasebook.FileSystem

namespace Phrasebook

inductive PathFault
  | missing (p : Path)
  | notAFile (p : Path)
  | noDirectory (directory : Path) (cause : SystemError)
  | isADirectory (p : Path)
deriving Repr, DecidableEq

def PathFault.message : PathFault → Text
  | .missing p => "File does not exist: ".toList ++ p
  | .notAFile p => "Path is not a file: ".toList ++ p
  | .noDirectory directory cause =>
    "Cannot create output directory ".toList ++ directory ++ ": ".toList ++ cause.message
  | .isADirectory p => "Output path is a directory: ".toList ++ p

namespace FileSystem

def checkInput (fs : FileSystem) (p : Path) : Except PathFault Unit :=
  if !fs.pathExists p then .error (.missing p)
  else if !fs.isFile p then .error (.notAFile p)
  else .ok ()

/-- The directory of an output, if the path names one and it is not there. -/
def missingParent? (fs : FileSystem) (p : Path) : Option Path :=
  p.parent?.filter fun directory => !directory.isEmpty && !fs.pathExists directory

/-- Makes the directory of an output, then checks the output itself. -/
def checkOutput (fs : FileSystem) (p : Path) : FileSystem × Except PathFault Unit :=
  let verdict (fs : FileSystem) : FileSystem × Except PathFault Unit :=
    (fs, if fs.isDirectory p then .error (.isADirectory p) else .ok ())
  match fs.missingParent? p with
  | none => verdict fs
  | some directory =>
    match fs.makeDirectories directory with
    | (made, .ok ()) => verdict made
    | (made, .error cause) => (made, .error (.noDirectory directory cause))

end FileSystem

end Phrasebook

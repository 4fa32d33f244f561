import Phrasebook.Command.Arguments

namespace Phrasebook.Command

structure CompileRequest where
  project : Path
  /-- A sheet in place of the project's. -/
  input : Option Path := none
  /-- A platform in place of the project's. -/
  platform : Option Text := none
  strictKeys : Bool := false
  reportMissing : Bool := false
  report : Option Path := none
  /-- Render the documents, but write none. -/
  dryRun : Bool := false
  sequential : Bool := false
deriving Repr, DecidableEq

structure CheckRequest where
  input : Path
  languages : List Text
  /-- Keep only the rows for this platform. -/
  platform : Option Text := none
  strictKeys : Bool := false
deriving Repr, DecidableEq

/-- What a command line asks for. -/
inductive Request
  | compile (r : CompileRequest)
  | check (r : CheckRequest)
deriving Repr, DecidableEq

/-- A request and whether to show the whole log. -/
structure Invocation where
  verbose : Bool
  request : Request
deriving Repr, DecidableEq

/-- Shows the whole log, for every command. -/
def verboseOption : OptionSpec := { name := "verbose".toList, letter := 'v', takesValue := false }

def projectOption : OptionSpec := { name := "config".toList, letter := 'c', mayBeEmpty := false }

def inputOption : OptionSpec := { name := "input".toList, letter := 'i', mayBeEmpty := false }

def platformOption : OptionSpec := { name := "platform".toList, letter := 'p' }

def strictKeysOption : OptionSpec := { name := "strict-keys".toList, takesValue := false }

def reportMissingOption : OptionSpec := { name := "report-missing".toList, takesValue := false }

def reportOption : OptionSpec := { name := "report-json".toList, mayBeEmpty := false }

def dryRunOption : OptionSpec := { name := "dry-run".toList, takesValue := false }

def sequentialOption : OptionSpec := { name := "sequential".toList, takesValue := false }

def languagesOption : OptionSpec := { name := "lang".toList, letter := 'l', repeats := true }

def compileOptions : List OptionSpec :=
  [verboseOption, projectOption, inputOption, platformOption, strictKeysOption,
    reportMissingOption, reportOption, dryRunOption, sequentialOption]

def checkOptions : List OptionSpec :=
  [verboseOption, inputOption, languagesOption, platformOption, strictKeysOption]

def compileRequest? (given : List Given) : Option Request :=
  (value? given projectOption).map fun project =>
    .compile
      { project := project
        input := value? given inputOption
        platform := value? given platformOption
        strictKeys := isGiven given strictKeysOption
        reportMissing := isGiven given reportMissingOption
        report := value? given reportOption
        dryRun := isGiven given dryRunOption
        sequential := isGiven given sequentialOption }

def checkRequest? (given : List Given) : Option Request :=
  if !isGiven given languagesOption then none
  else
    (value? given inputOption).map fun input =>
      .check
        { input := input
          languages := values given languagesOption
          platform := value? given platformOption
          strictKeys := isGiven given strictKeysOption }

/-- The command of a name: its options, and the request that they make. -/
def command? (name : Text) : Option (List OptionSpec × (List Given → Option Request)) :=
  if name = "compile".toList then some (compileOptions, compileRequest?)
  else if name = "check".toList then some (checkOptions, checkRequest?)
  else none

/-- What a command line asks for; nothing if its usage is wrong. Options before the command are
those that every command has, and none of them takes a value. -/
def Invocation.ofArguments? (arguments : List Text) : Option Invocation :=
  let before := arguments.takeWhile givesOptions
  match arguments.dropWhile givesOptions with
  | [] => none
  | name :: rest =>
    if before.contains "--".toList then none
    else
      match options? [verboseOption] before, command? name with
      | some general, some (specs, request?) =>
        match options? specs rest with
        | none => none
        | some given =>
          (request? given).map fun request =>
            { verbose := isGiven general verboseOption || isGiven given verboseOption
              request := request }
      | _, _ => none

end Phrasebook.Command

import Phrasebook.Path

/-!
# Arguments

A command line is a command with its options. An option has a long name, perhaps a letter, and
perhaps a value, which is attached to it or comes as the next argument. Letters can be written
together, and the last of them may have a value. A lone `--` ends the options; since no command
takes anything else, nothing may follow it. Whatever does not fit is wrong usage, without a reason
being given.
-/

namespace Phrasebook.Command

structure OptionSpec where
  name : Text
  letter : Option Char := none
  takesValue : Bool := true
  /-- May be given more than once, and with several values between commas. -/
  repeats : Bool := false
  mayBeEmpty : Bool := true
deriving Repr, DecidableEq

/-- An option as it was given; one that takes no value has an empty one. -/
structure Given where
  option : OptionSpec
  value : Text := []
deriving Repr, DecidableEq

/-- A value without the equals sign that may attach it to a letter. -/
def attached : Text → Text
  | '=' :: value => value
  | value => value

/-- Letters after one hyphen: the options they give, and the option that waits for its value. -/
def readLetters (specs : List OptionSpec) : Text → Option (List Given × Option OptionSpec)
  | [] => some ([], none)
  | c :: rest =>
    match specs.find? (·.letter == some c) with
    | none => none
    | some spec =>
      if spec.takesValue then
        if rest.isEmpty then some ([], some spec) else some ([⟨spec, attached rest⟩], none)
      else
        (readLetters specs rest).map fun (given, waiting) => (⟨spec, []⟩ :: given, waiting)

/-- A name after two hyphens, with the value that an equals sign attaches to it. -/
def readName (specs : List OptionSpec) (t : Text) : Option (List Given × Option OptionSpec) :=
  let (name, value?) :=
    match Text.cut '=' t with
    | some (name, value) => (name, some value)
    | none => (t, none)
  match specs.find? (·.name == name), value? with
  | none, _ => none
  | some spec, none => if spec.takesValue then some ([], some spec) else some ([⟨spec, []⟩], none)
  | some spec, some value => if spec.takesValue then some ([⟨spec, value⟩], none) else none

/-- Whether an argument gives options. A lone hyphen does not. -/
def givesOptions (argument : Text) : Bool := argument.head? == some '-' && argument != ['-']

def readOptions (specs : List OptionSpec) : Text → Option (List Given × Option OptionSpec)
  | '-' :: '-' :: t => readName specs t
  | '-' :: t => readLetters specs t
  | _ => none

/-- The options that some arguments give, when an option may still wait for its value. -/
def read (specs : List OptionSpec) (waiting : Option OptionSpec) :
    List Text → Option (List Given)
  | [] => if waiting.isNone then some [] else none
  | argument :: rest =>
    if argument = "--".toList then
      if waiting.isNone && rest.isEmpty then some [] else none
    else if givesOptions argument then
      if waiting.isSome then none
      else
        match readOptions specs argument with
        | none => none
        | some (given, waiting) => (read specs waiting rest).map (given ++ ·)
    else
      match waiting with
      | none => none
      | some spec => (read specs none rest).map (⟨spec, argument⟩ :: ·)

def timesGiven (given : List Given) (spec : OptionSpec) : Nat := given.countP (·.option == spec)

/-- Whether options are given as often as they may be, and with values that they accept. -/
def areAcceptable (specs : List OptionSpec) (given : List Given) : Bool :=
  specs.all (fun spec => spec.repeats || timesGiven given spec ≤ 1) &&
    given.all fun g => !g.option.takesValue || g.option.mayBeEmpty || !g.value.isEmpty

def options? (specs : List OptionSpec) (arguments : List Text) : Option (List Given) :=
  (read specs none arguments).filter (areAcceptable specs)

def value? (given : List Given) (spec : OptionSpec) : Option Text :=
  (given.find? (·.option == spec)).map (·.value)

def isGiven (given : List Given) (spec : OptionSpec) : Bool := given.any (·.option == spec)

def values (given : List Given) (spec : OptionSpec) : List Text :=
  (given.filter (·.option == spec)).flatMap fun g => g.value.splitOn ','

end Phrasebook.Command

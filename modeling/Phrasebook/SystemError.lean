import Phrasebook.SystemError.Reason

namespace Phrasebook

inductive SystemError
  | refused (code : Nat)
  /-- The path holds the character NUL. -/
  | nulInPath
deriving Repr, DecidableEq

namespace SystemError

@[match_pattern] abbrev notFound : SystemError := .refused 2

@[match_pattern] abbrev alreadyExists : SystemError := .refused 17

/-- A file stands where the path goes on. -/
@[match_pattern] abbrev notADirectory : SystemError := .refused 20

/-- A directory stands where a file should be. -/
@[match_pattern] abbrev isADirectory : SystemError := .refused 21

@[match_pattern] abbrev nameTooLong : SystemError := .refused 36

def message : SystemError → Text
  | .refused code =>
    systemReason code ++ " (os error ".toList ++ Text.decimal code ++ ")".toList
  | .nulInPath => "file name contained an unexpected NUL byte".toList

end SystemError

end Phrasebook

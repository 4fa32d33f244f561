import Phrasebook.Diagnostic
import Phrasebook.SystemError

namespace Phrasebook

/-- Where a record begins: its number, with the header as 0, its line, counted from 1, and the
number of bytes before it. -/
structure RecordPlace where
  record : Nat
  line : Nat
  byte : Nat
deriving Repr, DecidableEq

/-- Why a sheet, or one record of it, cannot be read. -/
inductive SheetFault
  | unreadable (cause : SystemError)
  | cellCount (place : RecordPlace) (found expected : Nat)
  /-- A cell is no text; the index counts the bytes of the cell that are. -/
  | illFormedCell (place : RecordPlace) (cell index : Nat)
deriving Repr, DecidableEq

namespace SheetFault

def message : SheetFault → Text
  | .unreadable cause => cause.message
  | .cellCount place found expected =>
    "CSV error: record ".toList ++ Text.decimal place.record ++ " (line: ".toList
      ++ Text.decimal place.line ++ ", byte: ".toList ++ Text.decimal place.byte
      ++ "): found record with ".toList ++ Text.decimal found
      ++ " fields, but the previous record has ".toList ++ Text.decimal expected
      ++ " fields".toList
  | .illFormedCell place cell index =>
    "CSV parse error: record ".toList ++ Text.decimal place.record ++ " (line ".toList
      ++ Text.decimal place.line ++ ", field: ".toList ++ Text.decimal cell
      ++ ", byte: ".toList ++ Text.decimal place.byte
      ++ "): invalid utf-8: invalid UTF-8 in field ".toList ++ Text.decimal cell
      ++ " near byte index ".toList ++ Text.decimal index

end SheetFault

/-- Why a phrase cannot be written in the syntax of a platform. -/
inductive FormatFault
  | dashesInComment
  | endInComment
  | resourceName (key : Text)
  | stringsKey (key : Text)
  | other (reason : Text)
deriving Repr, DecidableEq

namespace FormatFault

def message : FormatFault → Text
  | .dashesInComment => "XML comments cannot contain `--`".toList
  | .endInComment => "comments cannot contain `*/`".toList
  | .resourceName key => "`".toList ++ key ++ "` cannot be used as an Android resource name".toList
  | .stringsKey key => "`".toList ++ key ++ "` cannot be used as a .strings key".toList
  | .other reason => reason

end FormatFault

/-- What can go wrong between a sheet and its documents. -/
inductive Problem
  | noLanguages
  | duplicateLanguage (id : Text)
  | unknownPlatform (name : Text)
  | unresolvedLanguage (id : Text)
  | missingHeader
  | malformedSheet (fault : SheetFault)
  | unreadable (cause : SystemError)
  | keyContainsBlank (row : Nat) (key : Text)
  | duplicateKey (first second : Nat) (key : Text)
  | illegalKey (row : Nat) (key : Text)
  | format (fault : FormatFault)
  | write (language path : Text) (cause : SystemError)
  /-- Some documents could not be written; the languages are those of the failed ones. -/
  | incomplete (failed : List Text)
deriving Repr, DecidableEq

namespace Problem

def message : Problem → Text
  | .noLanguages => "you need to add at least one language".toList
  | .duplicateLanguage id => "language `".toList ++ id ++ "` is declared more than once".toList
  | .unknownPlatform name =>
    "platform must be one of Android, iOS or Web (got `".toList ++ name ++ "`)".toList
  | .unresolvedLanguage id => id ++ " does not have any translations".toList
  | .missingHeader => "the sheet has no header row".toList
  | .malformedSheet fault => "CSV parse error: ".toList ++ fault.message
  | .unreadable cause => "I/O error: ".toList ++ cause.message
  | .keyContainsBlank row _ =>
    "Line ".toList ++ Text.decimal row ++ " contains a space in its key".toList
  | .duplicateKey first second key =>
    "Lines ".toList ++ Text.decimal first ++ " and ".toList ++ Text.decimal second
      ++ " have the same key `".toList ++ key ++ "`".toList
  | .illegalKey row key =>
    "Line ".toList ++ Text.decimal row ++ " contains illegal characters in its key `".toList
      ++ key ++ "`".toList
  | .format fault => "format error: ".toList ++ fault.message
  | .write language path cause =>
    "failed to write ".toList ++ language ++ " to ".toList ++ path ++ ": ".toList ++ cause.message
  | .incomplete failed =>
    "failed to write documents for: ".toList ++ Text.joined ", ".toList failed

/-- The row that the problem points at; for two rows with one key, the earlier. -/
def row : Problem → Option Nat
  | .keyContainsBlank row _ => some row
  | .illegalKey row _ => some row
  | .duplicateKey first _ _ => some first
  | _ => none

def diagnostic (p : Problem) : Diagnostic :=
  { severity := .error, row := p.row, message := p.message }

end Problem

end Phrasebook

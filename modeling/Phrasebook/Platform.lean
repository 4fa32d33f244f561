import Phrasebook.Text.Blank

namespace Phrasebook

inductive Platform
  /-- Resource files of Android, in XML. -/
  | android
  /-- The .strings files of Apple's systems. -/
  | ios
  /-- A flat JSON object for web pages. -/
  | web
deriving Repr, DecidableEq

namespace Platform

def all : List Platform := [.android, .ios, .web]

def name : Platform → Text
  | .android => "Android".toList
  | .ios => "iOS".toList
  | .web => "Web".toList

def extension : Platform → Text
  | .android => "xml".toList
  | .ios => "strings".toList
  | .web => "json".toList

/-- A name as it is compared: trimmed and in small letters. -/
def canonical (name : Text) : Text := name.trim.lower

def ofName? (name : Text) : Option Platform := all.find? fun p => canonical name == p.name.lower

end Platform

end Phrasebook

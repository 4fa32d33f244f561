import Phrasebook.Text.Basic

namespace Phrasebook

structure Language where
  id : Text
  /-- The path of the language's document. -/
  destination : Text
  /-- The column of the language in the latest sheet. -/
  column : Option Nat := none
deriving Repr, DecidableEq

namespace Language

def display (l : Language) : Text := l.id ++ " -> ".toList ++ l.destination

end Language

end Phrasebook

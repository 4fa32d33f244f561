import Phrasebook.Text.Basic

namespace Phrasebook

/-- Whether a terminal takes a character for a command. -/
def isTerminalCommand (c : Char) : Bool :=
  c == '\x07' || c == '\x08' || c == '\x0c' || c == '\x1b' || (0x7F ≤ c.toNat && c.toNat ≤ 0x9F)

/-- A character on a terminal: a command is written by its number, in two digits. -/
def terminalForm (c : Char) : Text :=
  if isTerminalCommand c then
    let digits := [Nat.digitChar (c.toNat / 16), Nat.digitChar (c.toNat % 16)]
    if c.toNat < 0x80 then ['\\', 'x'] ++ digits else ['\\', 'u', '\x7b'] ++ digits ++ ['\x7d']
  else [c]

def Text.forTerminal (t : Text) : Text := t.flatMap terminalForm

end Phrasebook

import Phrasebook.Text.Basic

/-!
# Substitution

A substitution puts a replacement for each occurrence of a pattern, from left to right and without
overlap. Several substitutions are made either in turn, each over the result of the one before, or
at once, in a single pass that never reads what it has written.
-/

namespace Phrasebook

structure Substitution where
  pattern : Text
  replacement : Text
  anyCase : Bool := false
deriving Repr, DecidableEq

namespace Substitution

/-- Whether the pattern stands at the beginning of the text. -/
def applies (s : Substitution) (t : Text) : Bool :=
  if s.anyCase then Text.lower s.pattern == Text.lower (t.take s.pattern.length)
  else s.pattern.isPrefixOf t

/-- One pass over the text. The number counts the characters that still belong to the pattern that
was replaced last. -/
def pass (rules : List Substitution) : Nat → Text → Text
  | _, [] => []
  | n + 1, _ :: t => pass rules n t
  | 0, c :: t =>
    match rules.find? (·.applies (c :: t)) with
    | some s => s.replacement ++ pass rules (s.pattern.length - 1) t
    | none => c :: pass rules 0 t

/-- All substitutions in a single pass; at each place the first that applies is made. -/
def atOnce (rules : List Substitution) (t : Text) : Text := pass rules 0 t

def replace (s : Substitution) (t : Text) : Text := atOnce [s] t

/-- The substitutions one after the other, each over the whole result of the one before. -/
def inTurn (rules : List Substitution) (t : Text) : Text := rules.foldl (fun t s => s.replace t) t

@[simp] theorem inTurn_nil (t : Text) : inTurn [] t = t := rfl

@[simp] theorem inTurn_cons (s : Substitution) (rules : List Substitution) (t : Text) :
    inTurn (s :: rules) t = inTurn rules (s.replace t) := rfl

theorem inTurn_append (rules later : List Substitution) (t : Text) :
    inTurn (rules ++ later) t = inTurn later (inTurn rules t) := List.foldl_append

end Substitution

end Phrasebook

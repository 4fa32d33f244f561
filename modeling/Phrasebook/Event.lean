import Phrasebook.Problem

namespace Phrasebook

inductive Event
  | noted (diagnostic : Diagnostic)
  /-- A row was left out because it is meant for another platform. -/
  | skippedRow (row : Nat)
  | builtTable (phrases : Nat)
  | wrote (language path : Text)
  | completed (documents : Nat)
deriving Repr, DecidableEq

def diagnosticsOf (events : List Event) : Diagnostics :=
  events.filterMap fun
    | .noted d => some d
    | _ => none

@[simp] theorem diagnosticsOf_append (events later : List Event) :
    diagnosticsOf (events ++ later) = diagnosticsOf events ++ diagnosticsOf later := by
  simp [diagnosticsOf]

@[simp] theorem diagnosticsOf_map_noted (ds : Diagnostics) :
    diagnosticsOf (ds.map .noted) = ds := by
  induction ds with
  | nil => rfl
  | cons d ds ih => exact congrArg (d :: ·) ih

end Phrasebook

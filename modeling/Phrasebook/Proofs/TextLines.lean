import Phrasebook.Proofs.Trim

namespace Phrasebook.Text

def wholeLines : Text → List Text
  | [] => []
  | c :: t =>
    if c = '\n' then [c] :: wholeLines t
    else
      match wholeLines t with
      | [] => [[c]]
      | line :: lines => (c :: line) :: lines

def unended (line : Text) : Text :=
  match line.reverse with
  | '\n' :: '\r' :: rest => rest.reverse
  | '\n' :: rest => rest.reverse
  | _ => line

def lines (t : Text) : List Text := t.wholeLines.map unended

/-- The part is the text cut off after so many lines, behind the end of the last of them or before
it. -/
structure CutAfter (t : Text) (n : Nat) (part : Text) : Prop where
  begins : part <+: t
  lines : part.lines = t.lines.take n

variable {t x : Text}

theorem wholeLines_append (unbroken : '\n' ∉ x) (t : Text) :
    wholeLines (x ++ '\n' :: t) = (x ++ ['\n']) :: wholeLines t := by
  induction x with
  | nil => simp [wholeLines]
  | cons c x ih =>
    rw [List.mem_cons, not_or] at unbroken
    obtain ⟨other, rest⟩ := unbroken
    rw [List.cons_append, wholeLines, if_neg (Ne.symm other), ih rest]
    rfl

theorem wholeLines_of_unbroken (unbroken : '\n' ∉ x) (full : x ≠ []) : wholeLines x = [x] := by
  induction x with
  | nil => exact absurd rfl full
  | cons c x ih =>
    rw [List.mem_cons, not_or] at unbroken
    obtain ⟨other, rest⟩ := unbroken
    rw [wholeLines, if_neg (Ne.symm other)]
    cases x with
    | nil => rfl
    | cons d x => rw [ih rest (List.cons_ne_nil d x)]

/-- A text has a first line with an end, or it is the last line, or it has none. -/
@[elab_as_elim]
theorem lines_induction {motive : Text → Prop} (nil : motive [])
    (last : ∀ x, '\n' ∉ x → x ≠ [] → motive x)
    (line : ∀ x t, '\n' ∉ x → motive t → motive (x ++ '\n' :: t)) (t : Text) : motive t := by
  induction hn : t.length using Nat.strongRecOn generalizing t with
  | ind n ih =>
    subst hn
    by_cases broken : '\n' ∈ t
    · obtain ⟨x, rest, rfl, unbroken⟩ := List.eq_append_cons_of_mem broken
      apply line x rest unbroken
      apply ih rest.length _ rest rfl
      rw [List.length_append, List.length_cons]
      omega
    · by_cases empty : t = []
      · exact empty ▸ nil
      · exact last t broken empty

theorem flatten_wholeLines (t : Text) : t.wholeLines.flatten = t := by
  induction t using lines_induction with
  | nil => rfl
  | last x unbroken full => rw [wholeLines_of_unbroken unbroken full, List.flatten_singleton]
  | line x t unbroken ih => rw [wholeLines_append unbroken, List.flatten_cons, ih,
      List.append_assoc, List.singleton_append]

/-- Some of the first lines, put together again, are just these lines. -/
theorem wholeLines_take (n : Nat) (t : Text) :
    wholeLines (t.wholeLines.take n).flatten = t.wholeLines.take n := by
  induction t using lines_induction generalizing n with
  | nil =>
    rw [wholeLines, List.take_nil]
    rfl
  | last x unbroken full =>
    rw [wholeLines_of_unbroken unbroken full]
    cases n with
    | zero => rfl
    | succ n => simpa using wholeLines_of_unbroken unbroken full
  | line x t unbroken ih =>
    rw [wholeLines_append unbroken]
    cases n with
    | zero => rfl
    | succ n =>
      rw [List.take_succ_cons, List.flatten_cons, List.append_assoc, List.singleton_append,
        wholeLines_append unbroken, ih]

theorem exists_cutAfter (t : Text) (n : Nat) : ∃ part, t.CutAfter n part := by
  refine ⟨(t.wholeLines.take n).flatten, ?_, ?_⟩
  · refine ⟨(t.wholeLines.drop n).flatten, ?_⟩
    rw [← List.flatten_append, List.take_append_drop, flatten_wholeLines]
  · rw [lines, lines, wholeLines_take, List.map_take]

theorem exists_unended (line : Text) :
    ∃ ending, line = line.unended ++ ending ∧ ∀ c ∈ ending, isBlank c = true := by
  unfold unended
  split
  · rename_i rest reversed
    exact ⟨['\r', '\n'], by simpa using congrArg List.reverse reversed,
      List.all_eq_true.1 (by decide)⟩
  · rename_i rest _ reversed
    exact ⟨['\n'], by simpa using congrArg List.reverse reversed, List.all_eq_true.1 (by decide)⟩
  · exact ⟨[], (List.append_nil line).symm, nofun⟩

theorem trim_unended (line : Text) : line.unended.trim = line.trim := by
  obtain ⟨ending, whole, blank⟩ := exists_unended line
  conv_rhs => rw [whole]
  exact (trim_append_blanks blank).symm

/-- Without blanks at their ends, the lines are what stands between line feeds, but for an empty
piece after the last of these. -/
theorem map_trim_splitOn (t : Text) :
    (t.splitOn '\n').map trim = t.lines.map trim ∨
      (t.splitOn '\n').map trim = t.lines.map trim ++ [[]] := by
  have trimmed (t : Text) : t.lines.map trim = t.wholeLines.map trim := by
    rw [lines, List.map_map]
    exact List.map_congr_left fun line _ => trim_unended line
  simp only [trimmed]
  induction t using lines_induction with
  | nil => exact .inr rfl
  | last x unbroken full =>
    rw [List.splitOn_eq_singleton unbroken, wholeLines_of_unbroken unbroken full]
    exact .inl rfl
  | line x t unbroken ih =>
    have pieces : (x ++ '\n' :: t).splitOn '\n' = x :: t.splitOn '\n' := by
      have alone := List.splitOn_eq_singleton unbroken
      rw [List.splitOn] at alone ⊢
      rw [List.splitOnP_append_cons x t (by decide), alone]
      rfl
    have first : trim (x ++ ['\n']) = trim x :=
      trim_append_blanks (List.all_eq_true.1 (by decide))
    rw [pieces, wholeLines_append unbroken, List.map_cons, List.map_cons, first]
    exact ih.imp (congrArg _) (congrArg _)

end Phrasebook.Text

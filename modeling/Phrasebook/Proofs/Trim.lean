import Mathlib.Data.List.DropRight
import Phrasebook.Text.Blank

namespace Phrasebook

/-- Blanks that end no line. -/
def Gap (t : Text) : Prop := ∀ c ∈ t, isBlank c = true ∧ c ≠ '\n'

-- Characters are finitely many, and this is not to be decided by a search through all of them.
instance (t : Text) : Decidable (Gap t) :=
  List.decidableBAll (fun c => isBlank c = true ∧ c ≠ '\n') t

/-- No character is a blank. -/
def Solid (t : Text) : Prop := ∀ c ∈ t, isBlank c = false

instance (t : Text) : Decidable (Solid t) := List.decidableBAll (fun c => isBlank c = false) t

/-- A value with a gap on each side. -/
def Padded (value t : Text) : Prop :=
  ∃ before after, Gap before ∧ Gap after ∧ t = before ++ value ++ after

theorem isUpper_eq_false_of_isBlank {c : Char} (blank : isBlank c = true) :
    c.isUpper = false := by
  by_contra capital
  rw [Bool.not_eq_false] at capital
  have range : 65 ≤ c.toNat ∧ c.toNat ≤ 90 := of_decide_eq_true capital
  simp [isBlank, blankRanges] at blank
  omega

theorem toLower_eq_self {c : Char} (other : c.isUpper = false) : c.toLower = c := by
  rcases Text.toLower_cases c with ⟨upper, -⟩ | ⟨-, same⟩
  · cases upper.symm.trans other
  · exact same

theorem not_mem_of_lower {t small : Text} {c : Char} (lower : t.lower = small) (absent : c ∉ small)
    (other : c.isUpper = false) : c ∉ t := by
  intro inside
  apply absent
  rw [← lower, ← toLower_eq_self other]
  exact List.mem_map_of_mem inside

/-- No letter is a blank, so blanks are seen in any letter case. -/
theorem Solid.of_lower {t small : Text} (solid : Solid small) (lower : t.lower = small) :
    Solid t := by
  intro c inside
  by_contra blank
  rw [Bool.not_eq_false] at blank
  refine not_mem_of_lower lower ?_ (isUpper_eq_false_of_isBlank blank) inside
  intro among
  cases blank.symm.trans (solid c among)

theorem Solid.unbroken {t : Text} (solid : Solid t) : '\n' ∉ t := by
  intro inside
  exact absurd (solid _ inside) (by decide)

namespace Text

variable {s t before after : Text} {c : Char}

theorem trimStart_append_cons (solid : isBlank c = false) :
    trimStart (s ++ c :: t) = trimStart s ++ c :: t := by
  unfold trimStart
  rw [List.dropWhile_append]
  split
  · rename_i empty
    rw [List.isEmpty_iff.1 empty, List.dropWhile_cons_of_neg (by simp [solid]), List.nil_append]
  · rfl

theorem trimEnd_append_cons (solid : isBlank c = false) :
    trimEnd (s ++ c :: t) = s ++ c :: trimEnd t := by
  have reversed : (s ++ c :: t).reverse = t.reverse ++ c :: s.reverse := by simp
  have cut : trimStart (t.reverse ++ c :: s.reverse) = trimStart t.reverse ++ c :: s.reverse :=
    trimStart_append_cons solid
  unfold trimStart at cut
  unfold trimEnd
  rw [reversed, cut]
  simp

/-- Between a character that is no blank and the ends only the ends are trimmed. -/
theorem trim_append_cons (solid : isBlank c = false) :
    trim (s ++ c :: t) = trimStart s ++ c :: trimEnd t := by
  rw [trim, trimStart_append_cons solid, trimEnd_append_cons solid]

theorem trim_blanks_append (blank : ∀ c ∈ before, isBlank c = true) :
    trim (before ++ t) = trim t := by
  rw [trim, trimStart, List.dropWhile_append_of_pos blank]
  rfl

theorem trim_append_blanks (blank : ∀ c ∈ after, isBlank c = true) :
    trim (t ++ after) = trim t := by
  unfold trim trimStart
  rw [List.dropWhile_append]
  split
  · rename_i empty
    rw [List.isEmpty_iff.1 empty, List.dropWhile_eq_nil_iff.2 blank]
  · unfold trimEnd
    rw [List.reverse_append, List.dropWhile_append_of_pos (by simpa using blank)]

theorem trim_trimStart (t : Text) : trim (trimStart t) = trim t := by
  rw [trim, trimStart, trimStart, List.dropWhile_idempotent]
  rfl

theorem trim_trimEnd (t : Text) : trim (trimEnd t) = trim t := by
  have parts : trimEnd t ++ (t.reverse.takeWhile isBlank).reverse = t := by
    rw [trimEnd, ← List.reverse_append, List.takeWhile_append_dropWhile, List.reverse_reverse]
  have blank : ∀ c ∈ (t.reverse.takeWhile isBlank).reverse, isBlank c = true := by
    intro c inside
    exact List.mem_takeWhile_imp (List.mem_reverse.1 inside)
  conv_rhs => rw [← parts]
  exact (trim_append_blanks blank).symm

theorem trimEnd_trimEnd (t : Text) : trimEnd (trimEnd t) = trimEnd t := by
  unfold trimEnd
  rw [List.reverse_reverse, List.dropWhile_idempotent]

theorem trimEnd_eq_self (trimmed : t.trim = t) : t.trimEnd = t := by
  rw [← trimmed]
  exact trimEnd_trimEnd _

theorem trimStart_of_solid (solid : Solid t) : t.trimStart = t := by
  cases t with
  | nil => rfl
  | cons c t => exact List.dropWhile_cons_of_neg (by simp [solid c])

/-- What has no blanks stays when more is trimmed behind it. -/
theorem trim_solid_append (solid : Solid s) (filled : s ≠ []) (t : Text) :
    trim (s ++ t) = s ++ trimEnd t := by
  obtain ⟨first, last, rfl⟩ := (List.eq_nil_or_concat' s).resolve_left filled
  rw [Solid, List.forall_mem_append] at solid
  obtain ⟨before, end_solid⟩ := solid
  rw [List.append_assoc, List.singleton_append, trim_append_cons (end_solid _ List.mem_cons_self),
    trimStart_of_solid before, List.append_assoc, List.singleton_append]

theorem trim_of_solid (solid : Solid t) : t.trim = t := by
  by_cases empty : t = []
  · rw [empty]
    rfl
  · simpa [trimEnd] using trim_solid_append solid empty []

end Text

theorem Padded.trim_eq {value t : Text} (padded : Padded value t) : t.trim = value.trim := by
  obtain ⟨before, after, blanks, more, rfl⟩ := padded
  rw [Text.trim_append_blanks fun c inside => (more c inside).1,
    Text.trim_blanks_append fun c inside => (blanks c inside).1]

/-- Trimming at the start leaves a value that begins with no blank. -/
theorem Padded.trimStart_eq {c : Char} {value t : Text} (padded : Padded (c :: value) t)
    (solid : isBlank c = false) : ∃ after, Gap after ∧ t.trimStart = c :: value ++ after := by
  obtain ⟨before, after, blanks, more, rfl⟩ := padded
  refine ⟨after, more, ?_⟩
  rw [Text.trimStart, List.append_assoc,
    List.dropWhile_append_of_pos fun c inside => (blanks c inside).1, List.cons_append,
    List.dropWhile_cons_of_neg (by simp [solid])]

theorem Padded.of_mem {value t : Text} (padded : Padded value t) {c : Char} (inside : c ∈ t) :
    c ∈ value ∨ isBlank c = true ∧ c ≠ '\n' := by
  obtain ⟨before, after, blanks, more, rfl⟩ := padded
  rw [List.mem_append, List.mem_append] at inside
  rcases inside with (first | within) | last
  · exact .inr (blanks c first)
  · exact .inl within
  · exact .inr (more c last)

theorem Padded.unbroken {value t : Text} (padded : Padded value t) (unbroken : '\n' ∉ value) :
    '\n' ∉ t := by
  intro inside
  rcases padded.of_mem inside with within | blank
  · exact unbroken within
  · exact blank.2 rfl

end Phrasebook

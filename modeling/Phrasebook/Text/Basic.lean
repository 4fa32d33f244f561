namespace Phrasebook

/-- Text as the characters it is made of. -/
abbrev Text := List Char

namespace Text

def decimal (n : Nat) : Text := Nat.toDigits 10 n

/-- Text with the ASCII capitals made small; every other character stays. -/
def lower (t : Text) : Text := t.map Char.toLower

/-- Two texts agree when they differ in nothing but the case of ASCII letters. -/
def sameInAnyCase (s t : Text) : Bool := lower s == lower t

def contains (pattern : Text) : Text → Bool
  | [] => pattern.isEmpty
  | c :: t => pattern.isPrefixOf (c :: t) || contains pattern t

/-- What stands before and after the first separator, if there is one. -/
def cut (separator : Char) : Text → Option (Text × Text)
  | [] => none
  | c :: t =>
    if c = separator then some ([], t)
    else (cut separator t).map fun (before, after) => (c :: before, after)

def joined (separator : Text) (pieces : List Text) : Text := separator.intercalate pieces

theorem toLower_cases (c : Char) :
    c.isUpper = true ∧ c.toLower.isLower = true ∨ c.isUpper = false ∧ c.toLower = c := by
  unfold Char.toLower
  split
  · rename_i capital
    refine .inl ⟨decide_eq_true capital, Bool.and_eq_true_iff.2 ⟨?_, ?_⟩⟩
    all_goals
      simp [UInt32.le_iff_toNat_le] at capital ⊢
      omega
  · rename_i other
    exact .inr ⟨decide_eq_false other, rfl⟩

theorem contains_iff {pattern t : Text} : contains pattern t = true ↔ pattern <:+: t := by
  induction t with
  | nil => simp [contains]
  | cons c t ih => simp [contains, ih, List.infix_cons_iff]

theorem cut_append {separator : Char} {before : Text} (h : separator ∉ before) (after : Text) :
    cut separator (before ++ separator :: after) = some (before, after) := by
  induction before with
  | nil => simp [cut]
  | cons c b ih =>
    simp only [List.mem_cons, not_or] at h
    simp [cut, Ne.symm h.1, ih h.2]

/-- What is joined from two parts, neither of them empty, has one more separator between them. -/
theorem joined_append (separator : Text) {before after : List Text} (h : before ≠ [])
    (h' : after ≠ []) :
    joined separator (before ++ after) =
      joined separator before ++ separator ++ joined separator after := by
  induction before with
  | nil => exact absurd rfl h
  | cons piece before ih =>
    cases before with
    | nil =>
      obtain ⟨next, after, rfl⟩ := List.exists_cons_of_ne_nil h'
      simp [joined, List.intercalate_cons_cons]
    | cons next before =>
      have later := ih (List.cons_ne_nil next before)
      simp only [joined, List.cons_append, List.intercalate_cons_cons,
        List.append_assoc] at later ⊢
      rw [later]

end Text

end Phrasebook

import Phrasebook.Format.Apple
import Phrasebook.Proofs.StringsFile
import Phrasebook.Proofs.Substitution

namespace Phrasebook

namespace Apple

open StringsFile Substitution

def isPlain (c : Char) : Bool := c != '\\' && c != '"'

/-- Each backslash has a quote after it and each quote a backslash before it, where `slash` says
whether a backslash stands before the text. -/
def Paired : (slash : Bool) → Text → Prop
  | slash, [] => slash = false
  | slash, c :: t => (slash = true ↔ c = '"') ∧ Paired (c == '\\') t

theorem paired_cons_plain {c : Char} (plain : isPlain c = true) (t : Text) :
    Paired false (c :: t) ↔ Paired false t := by
  simp only [isPlain, Bool.and_eq_true, bne_iff_ne] at plain
  simp [Paired, plain.1, plain.2, beq_false_of_ne]

theorem paired_append_plain {x : Text} (plain : ∀ c ∈ x, isPlain c = true) (t : Text) :
    Paired false (x ++ t) ↔ Paired false t := by
  induction x with
  | nil => rfl
  | cons c x ih =>
    obtain ⟨first, plain⟩ := List.forall_mem_cons.1 plain
    rw [List.cons_append, paired_cons_plain first, ih plain]

theorem not_paired_cons_plain {c : Char} (plain : isPlain c = true) (t : Text) :
    ¬ Paired true (c :: t) := by
  rintro ⟨quote, -⟩
  rw [quote.1 rfl] at plain
  cases plain

/-- In a paired text the backslashes before each quote are one. -/
theorem Paired.escaped {slash : Bool} {t : Text} (h : Paired slash t) {read : Text}
    (escaped : Escaped read.reverse) (count : slashes read = slash.toNat) :
    Escaped (read.reverse ++ t) ∧ slashes (t.reverse ++ read) = 0 := by
  induction t generalizing slash read with
  | nil =>
    obtain rfl : slash = false := h
    exact ⟨by rwa [List.append_nil], count⟩
  | cons c t ih =>
    obtain ⟨quote, rest⟩ := h
    have next : Escaped (c :: read).reverse := by
      rw [List.reverse_cons]
      refine escaped_concat escaped fun ends => ?_
      rw [List.reverse_reverse, count, quote.2 ends]
      rfl
    have one : slashes (c :: read) = (c == '\\').toNat := by
      by_cases back : c = '\\'
      · subst c
        have alone : slash = false :=
          Bool.eq_false_iff.2 fun before => absurd (quote.1 before) (by decide)
        rw [alone] at count
        simpa [slashes] using count
      · simp [slashes, back, beq_false_of_ne]
    simpa using ih rest next one

theorem Paired.sealed {t : Text} (h : Paired false t) : Sealed t := by
  have empty : Escaped ([] : Text).reverse := fun i inside => absurd inside (Nat.not_lt_zero i)
  obtain ⟨escaped, none⟩ := h.escaped empty rfl
  rw [List.append_nil] at none
  exact ⟨escaped, by rw [none]⟩

/-! ## What keeps a text paired -/

/-- A substitution that neither finds nor writes a backslash or a quote. -/
structure Harmless (s : Substitution) : Prop where
  full : s.pattern ≠ []
  finds : s.pattern.all (isPlain ·.toLower) = true
  writes : s.replacement.all isPlain = true

instance (s : Substitution) : Decidable (Harmless s) :=
  decidable_of_iff (s.pattern ≠ [] ∧ s.pattern.all (isPlain ·.toLower) = true ∧
      s.replacement.all isPlain = true)
    ⟨fun ⟨full, finds, writes⟩ => ⟨full, finds, writes⟩, fun h => ⟨h.full, h.finds, h.writes⟩⟩

theorem lower_take_of_applies {s : Substitution} {t : Text} (h : s.applies t = true) :
    Text.lower (t.take s.pattern.length) = Text.lower s.pattern := by
  have begins := List.prefix_iff_eq_take.1 (lower_prefix_of_applies h)
  rw [Text.lower, Text.lower, List.length_map, ← List.map_take] at begins
  exact begins.symm

theorem plain_of_lower {c : Char} (h : isPlain c.toLower = true) : isPlain c = true := by
  simp only [isPlain, Bool.and_eq_true, bne_iff_ne] at h ⊢
  constructor
  · rintro rfl
    exact h.1 (by decide)
  · rintro rfl
    exact h.2 (by decide)

theorem plain_of_applies {s : Substitution} (harmless : Harmless s) {t : Text}
    (h : s.applies t = true) : ∀ c ∈ t.take s.pattern.length, isPlain c = true := by
  intro c mem
  have found : c.toLower ∈ Text.lower s.pattern := by
    rw [← lower_take_of_applies h]
    exact List.mem_map_of_mem mem
  obtain ⟨p, inside, same⟩ := List.mem_map.1 found
  exact plain_of_lower (same ▸ List.all_eq_true.1 harmless.finds p inside)

theorem paired_replace {s : Substitution} (harmless : Harmless s) {slash : Bool} {t : Text}
    (h : Paired slash t) : Paired slash (s.replace t) := by
  unfold replace
  induction t using atOnce_induction [s] generalizing slash with
  | nil => exact h
  | applied c t r found ih =>
    obtain rfl := List.mem_singleton.1 (List.mem_of_find?_eq_some found)
    have begins : r.applies (c :: t) = true := applies_of_find?_eq_some found
    have plain := plain_of_applies harmless begins
    obtain ⟨n, length⟩ := Nat.exists_eq_add_one_of_ne_zero (mt List.length_eq_zero_iff.1 harmless.full)
    rw [length, List.take_succ_cons] at plain
    -- A pattern begins with a plain character, which cannot stand after a backslash.
    have before : slash = false := by
      cases slash with
      | false => rfl
      | true => exact absurd h (not_paired_cons_plain (plain c List.mem_cons_self) t)
    subst before
    have rest : Paired false (t.drop n) := by
      rw [← paired_append_plain plain, List.cons_append, List.take_append_drop]
      exact h
    rw [atOnce_applied found, paired_append_plain (List.all_eq_true.1 harmless.writes)]
    rw [length] at ih ⊢
    exact ih rest
  | copied c t found ih =>
    rw [atOnce_copied found]
    exact ⟨h.1, ih h.2⟩

theorem paired_inTurn {rules : List Substitution} (harmless : ∀ s ∈ rules, Harmless s) {t : Text}
    (h : Paired false t) : Paired false (inTurn rules t) := by
  induction rules generalizing t with
  | nil => exact h
  | cons s rules ih =>
    obtain ⟨first, harmless⟩ := List.forall_mem_cons.1 harmless
    exact ih harmless (paired_replace first h)

theorem paired_withoutBreaks {slash : Bool} {t : Text} (h : Paired slash t) :
    Paired slash t.withoutBreaks := by
  unfold Text.withoutBreaks
  induction t generalizing slash with
  | nil => exact h
  | cons c t ih =>
    rw [List.filter_cons]
    split
    · exact ⟨h.1, ih h.2⟩
    · rename_i gone
      have broken : c = '\n' ∨ c = '\r' := by
        by_cases first : c = '\n'
        · exact .inl first
        · exact .inr (by simpa [first] using gone)
      have plain : isPlain c = true := by rcases broken with rfl | rfl <;> decide
      cases slash with
      | false => exact ih ((paired_cons_plain plain t).1 h)
      | true => exact absurd h (not_paired_cons_plain plain t)

/-- Quotes are escaped: in a text without backslashes each gets the one that it needs. -/
theorem paired_escapedQuote {t : Text} (h : '\\' ∉ t) : Paired false (escapedQuote.replace t) := by
  unfold replace
  induction t using atOnce_induction [escapedQuote] with
  | nil => rfl
  | applied c t r found ih =>
    obtain rfl := List.mem_singleton.1 (List.mem_of_find?_eq_some found)
    rw [atOnce_applied found]
    have rest : Paired false (atOnce [escapedQuote] t) :=
      ih fun mem => h (List.mem_cons_of_mem c mem)
    exact ⟨by decide, by decide, rest⟩
  | copied c t found ih =>
    obtain ⟨other, h⟩ := not_or.1 (mt List.mem_cons.2 h)
    have silent : c ≠ '"' := by
      rintro rfl
      simp [escapedQuote, applies] at found
    have plain : isPlain c = true := by simp [isPlain, Ne.symm other, silent]
    rw [atOnce_copied found, paired_cons_plain plain]
    exact ih h

/-- A value without backslashes fills its literal, and nothing more. -/
theorem sealed_respelled {value : Text} (h : '\\' ∉ value) :
    Sealed (respelled value.normalized) := by
  have quoted := paired_escapedQuote h
  have normal : Paired false value.normalized :=
    paired_withoutBreaks (paired_replace (by decide) quoted)
  have spelled : Paired false (inTurn placeholders value.normalized) :=
    paired_inTurn (by decide) normal
  have unmarked : Paired false (respelled value.normalized) :=
    paired_inTurn (by decide) spelled
  exact unmarked.sealed

theorem sealed_plain {key : Text} (quote : '"' ∉ key) (slash : '\\' ∉ key) : Sealed key := by
  have plain : ∀ c ∈ key, isPlain c = true := by
    intro c mem
    have apart : c ≠ '\\' ∧ c ≠ '"' :=
      ⟨fun same => slash (same ▸ mem), fun same => quote (same ▸ mem)⟩
    simp [isPlain, apart.1, apart.2]
  have paired := (paired_append_plain plain []).2 rfl
  rw [List.append_nil] at paired
  exact paired.sealed

end Apple

end Phrasebook

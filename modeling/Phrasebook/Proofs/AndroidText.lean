import Phrasebook.Format.Android
import Phrasebook.Proofs.Substitution

namespace Phrasebook

/-- The character references that occur in a document, and what they stand for. -/
def Xml.references : List Substitution :=
  [⟨"&amp;".toList, ['&'], false⟩, ⟨"&lt;".toList, ['<'], false⟩, ⟨"&gt;".toList, ['>'], false⟩,
    ⟨"&#8230;".toList, ['…'], false⟩]

def Xml.resolved (t : Text) : Text := Substitution.atOnce references t

namespace Android

open Substitution

/-- What a reader of the document finds changed in a value. -/
def marks : List Substitution :=
  [⟨['\''], "\\'".toList, false⟩, ⟨['@'], "\\@".toList, false⟩, ⟨"...".toList, ['…'], false⟩]

/-- A value with a backslash before each apostrophe and at sign, and an ellipsis for three dots. -/
def marked (value : Text) : Text := atOnce marks value

/-- No escape completes a marker: none holds its first character, or begins inside it. -/
theorem present_escapes {value : Text} (plain : Markup.present value = false) :
    Markup.present (inTurn escapes value) = false := by
  have once : inTurn escapes value = atOnce escapes value :=
    inTurn_eq_atOnce (by decide) (by decide) value
  rw [once]
  cases found : Markup.present (atOnce escapes value) with
  | false => rfl
  | true =>
    have inside : '<' :: "html>".toList <:+: value.map Char.toLower :=
      infix_of_infix_atOnce (by decide) (by decide) value
        (Text.contains_iff.1 found)
    exact absurd (Text.contains_iff.2 inside) (Bool.eq_false_iff.1 plain)

/-- The six passes over a value without markup are one. -/
theorem escape_eq_atOnce {value : Text} (plain : Markup.present value = false) :
    escape value = atOnce (escapes ++ brackets) value := by
  rw [escape, present_escapes plain]
  exact (inTurn_append escapes brackets value).symm.trans
    (inTurn_eq_atOnce (by decide) (by decide) value)

theorem lt_not_mem_escape {value : Text} (plain : Markup.present value = false) :
    '<' ∉ escape value := by
  rw [escape_eq_atOnce plain]
  have replaced : ⟨['<'], "&lt;".toList, false⟩ ∈ escapes ++ brackets := by decide
  exact not_mem_atOnce replaced (by decide) value

theorem resolved_cons {c : Char} (h : c ≠ '&') (t : Text) :
    Xml.resolved (c :: t) = c :: Xml.resolved t :=
  atOnce_append (x := [c]) (by decide) (by simp [Xml.references, h.symm]) t

theorem resolved_reference {r : Substitution} (mem : r ∈ Xml.references) (t : Text) :
    Xml.resolved (r.pattern ++ t) = r.replacement ++ Xml.resolved t :=
  atOnce_pattern (by decide) (by decide) mem t

theorem marked_cons {c : Char} (h : c ∉ ['\'', '@', '.']) (t : Text) :
    marked (c :: t) = c :: marked t := by
  refine @atOnce_append marks (by decide) [c] ?_ t
  intro d hd r mem first
  obtain rfl := List.mem_singleton.1 hd
  refine h ?_
  simp only [marks, List.mem_cons, List.not_mem_nil, or_false] at mem
  rcases mem with rfl | rfl | rfl <;> cases first <;> decide

theorem marked_mark {r : Substitution} (mem : r ∈ marks) (t : Text) :
    marked (r.pattern ++ t) = r.replacement ++ marked t :=
  atOnce_pattern (by decide) (by decide) mem t

/-- What one escape wrote is read as what the mark of its place says. -/
theorem resolved_escape_append {r : Substitution} (mem : r ∈ escapes ++ brackets) {t u : Text}
    (ih : Xml.resolved u = marked t) :
    Xml.resolved (r.replacement ++ u) = marked (r.pattern ++ t) := by
  have plain : ∀ s ∈ Xml.references, ∀ c ∉ ['\'', '@', '.'], s.replacement = [c] →
      Xml.resolved (s.pattern ++ u) = marked ([c] ++ t) := by
    intro s hs c hc same
    rw [resolved_reference hs, same, ih]
    exact (marked_cons hc t).symm
  have slashed : ∀ s ∈ marks, ∀ c, s.replacement = ['\\', c] → c ≠ '&' →
      Xml.resolved (s.replacement ++ u) = marked (s.pattern ++ t) := by
    intro s hs c same letter
    rw [marked_mark hs, same, ← ih]
    exact (resolved_cons (by decide) _).trans (congrArg _ (resolved_cons letter u))
  have dots := (resolved_reference (r := ⟨"&#8230;".toList, ['…'], false⟩) (by decide) u).trans
    ((congrArg _ ih).trans (marked_mark (r := ⟨"...".toList, ['…'], false⟩) (by decide) t).symm)
  simp only [escapes, brackets, List.cons_append, List.nil_append, List.mem_cons, List.not_mem_nil,
    or_false] at mem
  rcases mem with rfl | rfl | rfl | rfl | rfl | rfl
  · exact plain ⟨"&amp;".toList, ['&'], false⟩ (by decide) '&' (by decide) rfl
  · exact slashed ⟨['\''], "\\'".toList, false⟩ (by decide) '\'' rfl (by decide)
  · exact slashed ⟨['@'], "\\@".toList, false⟩ (by decide) '@' rfl (by decide)
  · exact dots
  · exact plain ⟨"&lt;".toList, ['<'], false⟩ (by decide) '<' (by decide) rfl
  · exact plain ⟨"&gt;".toList, ['>'], false⟩ (by decide) '>' (by decide) rfl

theorem resolved_atOnce (value : Text) :
    Xml.resolved (atOnce (escapes ++ brackets) value) = marked value := by
  induction value using atOnce_induction (escapes ++ brackets) with
  | nil => rfl
  | applied c t r found ih =>
    have mem := List.mem_of_find?_eq_some found
    have exacts : ∀ r ∈ escapes ++ brackets, Exact r := by decide
    have begins : r.applies (c :: t) = true := applies_of_find?_eq_some found
    rw [atOnce_applied found, (exacts r mem).eq_append begins]
    exact resolved_escape_append mem ih
  | copied c t found ih =>
    -- A mark has the pattern of an escape, so where no escape is made there is no mark either.
    have same : ∀ r ∈ marks, ∃ s ∈ escapes ++ brackets,
        s.pattern = r.pattern ∧ s.anyCase = r.anyCase := by decide
    have silent : marks.find? (·.applies (c :: t)) = none := by
      rw [List.find?_eq_none] at found ⊢
      intro r mem
      obtain ⟨s, hs, pattern, anyCase⟩ := same r mem
      simpa only [applies, pattern, anyCase] using found s hs
    have letter : c ≠ '&' := by
      rintro rfl
      simp [escapes, applies] at found
    rw [atOnce_copied found, resolved_cons letter, ih, marked, marked, atOnce_copied silent]

/-- With its references resolved, the text of an element is the value with its marks. -/
theorem resolved_escape {value : Text} (plain : Markup.present value = false) :
    Xml.resolved (escape value) = marked value := by
  rw [escape_eq_atOnce plain, resolved_atOnce]

end Android

end Phrasebook

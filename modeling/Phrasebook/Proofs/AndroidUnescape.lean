import Phrasebook.Proofs.AndroidText

/-!
# Android escapes undone

To undo the escapes of a value without markup is again a chain of independent passes, so it is one
pass, and it takes each piece that was written for the pattern it was written for. What has been
copied is never taken for such a piece: no ampersand is copied, and what comes after a copied
backslash is not an apostrophe or an at sign, since each of these has a backslash of its own.
-/

namespace Phrasebook

/-- The substitution that takes back what was written. -/
def Substitution.inverse (s : Substitution) : Substitution := ⟨s.replacement, s.pattern, false⟩

namespace Android

open Substitution

/-- All that is written in a value without markup, in the order of the passes. -/
def plainEscapes : List Substitution := escapes ++ brackets

/-- The inverse substitutions, the last escape first. -/
def undoings : List Substitution := (plainEscapes.map Substitution.inverse).reverse

/-- A text with its escapes undone, one after the other. -/
def unescape (t : Text) : Text := inTurn undoings t

/-- The characters that get a backslash. -/
def isSlashed (c : Char) : Bool := c == '\'' || c == '@'

/-- What an element says of its value: nothing in it is raw, and the value can be had back. -/
structure Faithful (value text : Text) : Prop where
  noOpening : '<' ∉ text
  noClosing : '>' ∉ text
  noDots : ¬ "...".toList <:+: text
  referenced : ∀ rest, '&' :: rest <:+ text → ∃ r ∈ Xml.references, r.pattern <+: '&' :: rest
  slashed : ∀ before c rest, text = before ++ c :: rest → isSlashed c = true →
    before.getLast? = some '\\'
  undone : unescape text = value

/-! ## What the pass leaves -/

theorem dots_not_infix_atOnce (value : Text) : ¬ "...".toList <:+: atOnce plainEscapes value := by
  have dots : ⟨"...".toList, "&#8230;".toList, false⟩ ∈ plainEscapes := by decide
  exact not_infix_atOnce dots (by decide) (by decide) (by decide) value

/-- Every ampersand is one that was written, and begins a reference. -/
theorem referenced_atOnce (value rest : Text) (h : '&' :: rest <:+ atOnce plainEscapes value) :
    ∃ r ∈ Xml.references, r.pattern <+: '&' :: rest := by
  let P (z : Text) : Prop := z.head? = some '&' → ∃ r ∈ Xml.references, r.pattern <+: z
  have all : ∀ z ≠ [], z <:+ atOnce plainEscapes value → P z := by
    apply forall_suffix_atOnce
    · intro r mem y full ends t first
      -- A replacement holds no ampersand but its first character, and then it is a reference.
      have pieces : ∀ r ∈ plainEscapes, ∀ y ∈ r.replacement.tails, y.head? = some '&' →
          ∃ s ∈ Xml.references, s.pattern <+: y := by decide
      have begins : y.head? = some '&' := by
        rwa [List.head?_append_of_ne_nil y full] at first
      obtain ⟨s, known, reads⟩ := pieces r mem y ((List.mem_tails ..).2 ends) begins
      exact ⟨s, known, reads.trans (List.prefix_append y _)⟩
    · intro c t found first
      obtain rfl : c = '&' := Option.some.inj first
      exact absurd rfl (List.find?_eq_none.1 found ⟨['&'], "&amp;".toList, false⟩ (by decide))
  exact all _ (List.cons_ne_nil _ _) h rfl

/-- No apostrophe and no at sign is copied, and each that is written has its backslash. -/
theorem slashed_atOnce (value : Text) : ∀ before c rest,
    atOnce plainEscapes value = before ++ c :: rest → isSlashed c = true →
      before.getLast? = some '\\' := by
  induction value using atOnce_induction plainEscapes with
  | nil =>
    intro before c rest split
    exact absurd split.symm (by simp)
  | applied c t r found ih =>
    intro before d rest split special
    rw [atOnce_applied found] at split
    rcases List.append_eq_append_iff.1 split with ⟨x, rfl, later⟩ | ⟨y, within, after⟩
    · rw [List.getLast?_append, ih x d rest later special]
      rfl
    · cases y with
      | nil => exact absurd (ih [] d rest after.symm special) (by simp)
      | cons e y =>
        obtain ⟨rfl, -⟩ := List.cons.inj after
        have pieces : ∀ r ∈ plainEscapes, ∀ i < r.replacement.length,
            r.replacement[i]?.any isSlashed = true →
              (r.replacement.take i).getLast? = some '\\' := by decide
        have place := pieces r (List.mem_of_find?_eq_some found) before.length (by simp [within])
          (by simpa [within] using special)
        rwa [within, List.take_left] at place
  | copied c t found ih =>
    intro before d rest split special
    rw [atOnce_copied found] at split
    cases before with
    | nil =>
      obtain ⟨rfl, -⟩ := List.cons.inj split
      have silent := List.find?_eq_none.1 found
      simp only [isSlashed, Bool.or_eq_true, beq_iff_eq] at special
      rcases special with rfl | rfl
      · exact absurd rfl (silent ⟨['\''], "\\'".toList, false⟩ (by decide))
      · exact absurd rfl (silent ⟨['@'], "\\@".toList, false⟩ (by decide))
    | cons b before =>
      obtain ⟨-, later⟩ := List.cons.inj split
      have last := ih before d rest later special
      obtain ⟨front, rfl⟩ := List.getLast?_eq_some_iff.1 last
      rw [← List.cons_append, List.getLast?_concat]

/-! ## What undoing finds -/

theorem unescape_eq_atOnce (t : Text) : unescape t = atOnce undoings t :=
  inTurn_eq_atOnce (by decide) (by decide) t

theorem undone_written {r : Substitution} (mem : r ∈ plainEscapes) (u : Text) :
    atOnce undoings (r.replacement ++ u) = r.pattern ++ atOnce undoings u :=
  atOnce_pattern (by decide) (by decide) (List.mem_reverse.2 (List.mem_map_of_mem mem)) u

/-- A character that was copied is not taken for the beginning of anything that was written. -/
theorem undone_copied {c : Char} {t : Text}
    (found : plainEscapes.find? (·.applies (c :: t)) = none) :
    undoings.find? (·.applies (c :: atOnce plainEscapes t)) = none := by
  have letter : c ≠ '&' := by
    rintro rfl
    exact List.find?_eq_none.1 found ⟨['&'], "&amp;".toList, false⟩ (by decide) rfl
  have alone : ∀ d, isSlashed d = true → ¬ [d] <+: atOnce plainEscapes t := by
    rintro d special ⟨rest, split⟩
    exact absurd (slashed_atOnce t [] d rest split.symm special) (by simp)
  have exacts : ∀ s ∈ undoings, Exact s := by decide
  have pieces : ∀ s ∈ undoings, s.pattern.head? = some '&' ∨
      s.pattern ∈ ["\\'".toList, "\\@".toList] := by decide
  rw [List.find?_eq_none]
  intro s mem applied
  have begins := (exacts s mem).applies_iff.1 applied
  rcases pieces s mem with reference | slash
  · obtain ⟨x, pattern⟩ := List.head?_eq_some_iff.1 reference
    rw [pattern, List.cons_prefix_cons] at begins
    exact letter begins.1.symm
  · simp only [List.mem_cons, List.not_mem_nil, or_false] at slash
    rcases slash with pattern | pattern
    · rw [pattern] at begins
      exact alone '\'' rfl (List.cons_prefix_cons.1 begins).2
    · rw [pattern] at begins
      exact alone '@' rfl (List.cons_prefix_cons.1 begins).2

theorem undone_atOnce (value : Text) :
    atOnce undoings (atOnce plainEscapes value) = value := by
  induction value using atOnce_induction plainEscapes with
  | nil => rfl
  | applied c t r found ih =>
    have mem := List.mem_of_find?_eq_some found
    have exacts : ∀ r ∈ plainEscapes, Exact r := by decide
    have begins : r.applies (c :: t) = true := applies_of_find?_eq_some found
    rw [atOnce_applied found, undone_written mem, ih]
    exact ((exacts r mem).eq_append begins).symm
  | copied c t found ih => rw [atOnce_copied found, atOnce_copied (undone_copied found), ih]

theorem unescape_escape {value : Text} (plain : Markup.present value = false) :
    unescape (escape value) = value := by
  rw [unescape_eq_atOnce, escape_eq_atOnce plain]
  exact undone_atOnce value

/-- **Escaping loses nothing and leaves nothing raw.** Without markup, no two values have the same
text. -/
theorem escape_faithful {value : Text} (plain : Markup.present value = false) :
    Faithful value (escape value) ∧
      ∀ other, Markup.present other = false → escape other = escape value → other = value := by
  refine ⟨?_, fun other clear same => ?_⟩
  · have once : escape value = atOnce plainEscapes value := escape_eq_atOnce plain
    have closing : ⟨['>'], "&gt;".toList, false⟩ ∈ plainEscapes := by decide
    constructor
    case noOpening => exact lt_not_mem_escape plain
    case noClosing => exact once ▸ not_mem_atOnce closing (by decide) value
    case noDots => exact once ▸ dots_not_infix_atOnce value
    case referenced => exact fun rest ends => referenced_atOnce value rest (once ▸ ends)
    case slashed =>
      exact fun before c rest split => slashed_atOnce value before c rest (once.symm.trans split)
    case undone => exact unescape_escape plain
  · rw [← unescape_escape clear, same, unescape_escape plain]

/-- A value that holds what the escapes write, runs of dots and backslashes. -/
theorem escape_faithful_of_entities :
    let value := "&lt; <b>it\\'s</b> \\@you&amp;#8230; ..... 'n' @ </HTML>".toList
    Markup.present value = false ∧ Faithful value (escape value) ∧
      ∀ other, Markup.present other = false → escape other = escape value → other = value := by
  intro value
  have plain : Markup.present value = false := by decide
  exact ⟨plain, escape_faithful plain⟩

end Android

end Phrasebook

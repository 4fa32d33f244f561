import Phrasebook.Proofs.Scanner
import Phrasebook.Text.Blank

/-!
# Reading .strings files

A file is made of comments and statements, apart by white space. A comment ends at the first `*/`, a
literal at the first quote with an even number of backslashes right before it, and a statement is a
literal, an equals sign between single spaces, a literal and a semicolon. Sealed texts are those
that a literal can hold: they are read to their end, and nothing else is ever read.
-/

namespace Phrasebook.StringsFile

inductive Item
  | comment (content : Text)
  | statement (key value : Text)
deriving Repr, DecidableEq

/-- How far an item has been read. What has been read of it stands with the last character in
front. -/
inductive State
  | between
  | slash
  | comment (read : Text)
  /-- In a key, or in the value of a key. -/
  | literal (key : Option Text) (read : Text)
  /-- After a key, with what is still to come before its value. -/
  | separator (key left : Text)
  | semicolon (key value : Text)
deriving Repr, DecidableEq

/-- The backslashes right before a place, with what stands before it given from its end. -/
def slashes (read : Text) : Nat := (read.takeWhile (· == '\\')).length

def afterLiteral (key : Option Text) (literal : Text) : State :=
  match key with
  | none => .separator literal " = \"".toList
  | some key => .semicolon key literal

def step : State → Char → Option (List Item × State)
  | .between, c =>
    if isBlank c then some ([], .between)
    else if c = '/' then some ([], .slash)
    else if c = '"' then some ([], .literal none [])
    else none
  | .slash, c => if c = '*' then some ([], .comment []) else none
  | .comment read, c =>
    if c = '/' && read.head? == some '*' then some ([.comment read.tail.reverse], .between)
    else some ([], .comment (c :: read))
  | .literal key read, c =>
    if c = '"' && slashes read % 2 == 0 then some ([], afterLiteral key read.reverse)
    else some ([], .literal key (c :: read))
  | .separator key left, c =>
    if left.head? == some c then
      some ([], if left.tail.isEmpty then .literal (some key) [] else .separator key left.tail)
    else none
  | .semicolon key value, c => if c = ';' then some ([.statement key value], .between) else none

/-- A file may end only between two items. -/
def finish : State → Option (List Item)
  | .between => some []
  | _ => none

def reader : Scanner State Item := ⟨.between, step, finish⟩

def items (t : Text) : Option (List Item) := reader.read t

/-! ## Sealed texts -/

/-- Each quote has an odd number of backslashes right before it. -/
def Escaped (t : Text) : Prop :=
  ∀ i < t.length, t[i]? = some '"' → slashes (t.take i).reverse % 2 = 1

instance (t : Text) : Decidable (Escaped t) :=
  inferInstanceAs (Decidable (∀ i < t.length, t[i]? = some '"' → _))

/-- No quote in the text ends the literal that holds it, and the quote after the text does. -/
structure Sealed (t : Text) : Prop where
  escaped : Escaped t
  closed : slashes t.reverse % 2 = 0

instance (t : Text) : Decidable (Sealed t) :=
  decidable_of_iff (Escaped t ∧ slashes t.reverse % 2 = 0)
    ⟨fun h => ⟨h.1, h.2⟩, fun h => ⟨h.escaped, h.closed⟩⟩

/-- The literals of an item are sealed. -/
def Item.Intact : Item → Prop
  | .comment _ => True
  | .statement key value => Sealed key ∧ Sealed value

instance : (item : Item) → Decidable item.Intact
  | .comment _ => .isTrue trivial
  | .statement key value => inferInstanceAs (Decidable (Sealed key ∧ Sealed value))

theorem escaped_concat {t : Text} {c : Char} (h : Escaped t)
    (odd : c = '"' → slashes t.reverse % 2 = 1) : Escaped (t ++ [c]) := by
  intro i inside quote
  rw [List.length_append, List.length_singleton] at inside
  rcases Nat.lt_succ_iff_lt_or_eq.1 inside with earlier | rfl
  · rw [List.getElem?_append_left earlier] at quote
    rw [List.take_append_of_le_length (Nat.le_of_lt earlier)]
    exact h i earlier quote
  · rw [List.getElem?_concat_length] at quote
    rw [List.take_left]
    exact odd (Option.some.inj quote)

/-- The quote that comes next in an escaped text is not the end of a literal. -/
theorem odd_of_escaped {read x : Text} {c : Char} (h : Escaped (read.reverse ++ c :: x))
    (quote : c = '"') : slashes read % 2 = 1 := by
  have next := h read.length (by simp) (by simp [quote])
  rwa [List.take_left' List.length_reverse, List.reverse_reverse] at next

/-! ## What is read to its end -/

/-- A literal goes on as long as the text is escaped. -/
theorem reads_literal {read x : Text} (key : Option Text) (h : Escaped (read.reverse ++ x)) :
    reader.Reads (.literal key read) x [] (.literal key (x.reverse ++ read)) := by
  induction x generalizing read with
  | nil => rfl
  | cons c x ih =>
    have one : reader.step (.literal key read) c = some ([], .literal key (c :: read)) := by
      have stays : ¬ (c = '"' ∧ slashes read % 2 = 0) := by
        rintro ⟨quote, even⟩
        have odd := odd_of_escaped h quote
        omega
      simp [reader, step, stays]
    have rest : Escaped ((c :: read).reverse ++ x) := by simpa using h
    simpa using (ih rest).cons one

theorem reads_literalEnd {t : Text} (key : Option Text) (h : Sealed t) :
    reader.Reads (.literal key []) (t ++ ['"']) [] (afterLiteral key t) := by
  have inner : reader.Reads (.literal key []) t [] (.literal key (t.reverse ++ [])) :=
    reads_literal key h.escaped
  have quote : reader.Reads (.literal key (t.reverse ++ [])) ['"'] [] (afterLiteral key t) := by
    simp [Scanner.Reads, Scanner.run, reader, step, h.closed]
  exact inner.append quote

theorem reads_statement {key value : Text} (h : (Item.statement key value).Intact) :
    reader.Reads .between
      ("\"".toList ++ key ++ "\" = \"".toList ++ value ++ "\";".toList) [.statement key value]
      .between := by
  obtain ⟨hkey, hvalue⟩ := h
  have opened : reader.Reads .between ['"'] [] (.literal none []) := rfl
  have between : reader.Reads (afterLiteral none key) " = \"".toList [] (.literal (some key) []) :=
    rfl
  have ended : reader.Reads (afterLiteral (some key) value) [';'] [.statement key value] .between :=
    rfl
  have whole := (((opened.append (reads_literalEnd none hkey)).append between).append
    (reads_literalEnd (some key) hvalue)).append ended
  simpa using whole

/-- A comment goes on as long as its end does not occur. -/
theorem reads_comment {read x : Text} (h : ¬ ['*', '/'] <:+: read.reverse ++ x) :
    reader.Reads (.comment read) x [] (.comment (x.reverse ++ read)) := by
  induction x generalizing read with
  | nil => rfl
  | cons c x ih =>
    have one : reader.step (.comment read) c = some ([], .comment (c :: read)) := by
      have stays : ¬ (c = '/' ∧ read.head? = some '*') := by
        rintro ⟨rfl, star⟩
        obtain ⟨rest, rfl⟩ := List.head?_eq_some_iff.1 star
        exact h ⟨rest.reverse, x, by simp⟩
      simp [reader, step, stays]
    have rest : ¬ ['*', '/'] <:+: (c :: read).reverse ++ x := by simpa using h
    simpa using (ih rest).cons one

theorem reads_wholeComment {content : Text} (h : ¬ ['*', '/'] <:+: content) :
    reader.Reads .between ("/*".toList ++ content ++ "*/".toList) [.comment content] .between := by
  have opened : reader.Reads .between "/*".toList [] (.comment []) := rfl
  have inner : reader.Reads (.comment []) content [] (.comment (content.reverse ++ [])) :=
    reads_comment h
  have ended : reader.Reads (.comment (content.reverse ++ [])) "*/".toList [.comment content]
      .between := by
    simp [Scanner.Reads, Scanner.run, reader, step]
  exact (opened.append inner).append ended

/-! ## What is ever read -/

/-- The literals that have been read are sealed, and the one that is being read is escaped. -/
def Kept : State → Prop
  | .literal key read => (∀ k ∈ key, Sealed k) ∧ Escaped read.reverse
  | .separator key _ => Sealed key
  | .semicolon key value => Sealed key ∧ Sealed value
  | _ => True

theorem kept_afterLiteral {key : Option Text} {read : Text} (kept : Kept (.literal key read))
    (even : slashes read % 2 = 0) : Kept (afterLiteral key read.reverse) := by
  have whole : Sealed read.reverse := ⟨kept.2, by rwa [List.reverse_reverse]⟩
  cases key with
  | none => exact whole
  | some key => exact ⟨kept.1 key rfl, whole⟩

theorem kept_cons {key : Option Text} {read : Text} {c : Char} (kept : Kept (.literal key read))
    (stays : ¬ (c = '"' ∧ slashes read % 2 = 0)) : Kept (.literal key (c :: read)) := by
  refine ⟨kept.1, ?_⟩
  rw [List.reverse_cons]
  refine escaped_concat kept.2 fun quote => ?_
  rw [List.reverse_reverse]
  have odd : slashes read % 2 ≠ 0 := fun even => stays ⟨quote, even⟩
  omega

theorem step_kept (state : State) (c : Char) (ended : List Item) (next : State) (kept : Kept state)
    (h : step state c = some (ended, next)) : Kept next ∧ ∀ item ∈ ended, item.Intact := by
  have empty : ∀ key : Option Text, (∀ k ∈ key, Sealed k) → Kept (.literal key []) :=
    fun key whole => ⟨whole, fun i inside => absurd inside (Nat.not_lt_zero i)⟩
  cases state with
  | between =>
    simp only [step] at h
    split at h
    · cases h; exact ⟨trivial, by simp⟩
    split at h
    · cases h; exact ⟨trivial, by simp⟩
    split at h
    · cases h; exact ⟨empty none (by simp), by simp⟩
    · cases h
  | slash =>
    simp only [step] at h
    split at h
    · cases h; exact ⟨trivial, by simp⟩
    · cases h
  | comment read =>
    simp only [step] at h
    split at h
    · cases h; exact ⟨trivial, by simp [Item.Intact]⟩
    · cases h; exact ⟨trivial, by simp⟩
  | literal key read =>
    simp only [step, Bool.and_eq_true, decide_eq_true_eq, beq_iff_eq] at h
    split at h
    · rename_i quote
      cases h
      exact ⟨kept_afterLiteral kept quote.2, by simp⟩
    · rename_i stays
      cases h
      exact ⟨kept_cons kept stays, by simp⟩
  | separator key left =>
    simp only [step] at h
    split at h
    · cases h
      refine ⟨?_, by simp⟩
      split
      · have whole : Sealed key := kept
        exact empty (some key) (by simpa using whole)
      · exact kept
    · cases h
  | semicolon key value =>
    simp only [step] at h
    split at h
    · cases h
      exact ⟨trivial, List.forall_mem_singleton.2 kept⟩
    · cases h

/-- Only sealed texts are read as keys and values. -/
theorem intact_of_items {t : Text} {read : List Item} (h : items t = some read) :
    ∀ item ∈ read, item.Intact := by
  obtain ⟨first, last, next, run, ended, rfl⟩ := Scanner.reads_of_read h
  have good := (Scanner.Reads.preserves step_kept trivial run).2
  cases next with
  | between =>
    obtain rfl := Option.some.inj ended
    simpa using good
  | _ => cases ended

end Phrasebook.StringsFile

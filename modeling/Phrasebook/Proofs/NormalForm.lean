import Phrasebook.Format.Apple
import Phrasebook.Format.Web
import Phrasebook.Proofs.Locality

/-!
# What a rewriting leaves

A value for an Apple or a web document goes through a chain of passes, and each of them is made
once. A pass that drops something, a line break or a marker, can bring together the two halves of a
pattern that was looked for before. This is all that can go wrong, and it is told by the parts of
the value: a pattern is left exactly if some part of the value is rewritten to it, which is then the
pattern with line breaks or markers inside, and none is left if there is nothing to drop.
-/

namespace Phrasebook

open Substitution

namespace Substitution

def dropped (c : Char) : Substitution := ⟨[c], [], false⟩

theorem replace_dropped (c : Char) (t : Text) : (dropped c).replace t = t.filter (· != c) := by
  induction t with
  | nil => rfl
  | cons d t ih =>
    by_cases same : d = c
    · subst same
      have found : [dropped d].find? (·.applies (d :: t)) = some (dropped d) := by
        simp [dropped, applies]
      rw [replace, atOnce_applied found]
      simpa [dropped, replace] using ih
    · have none : [dropped c].find? (·.applies (d :: t)) = none := by
        simp [dropped, applies, Ne.symm same]
      rw [replace, atOnce_copied none, List.filter_cons_of_pos (by simpa using same)]
      exact congrArg (d :: ·) ih

/-- A pass has nothing to do where its pattern does not stand. -/
theorem replace_of_absent {s : Substitution} {t : Text}
    (absent : ¬ s.pattern.map s.fold <:+: t.map s.fold) : s.replace t = t := by
  induction t with
  | nil => rfl
  | cons c t ih =>
    rw [List.map_cons, List.infix_cons_iff, not_or] at absent
    obtain ⟨here, later⟩ := absent
    have none : [s].find? (·.applies (c :: t)) = none := by
      rw [List.find?_singleton, if_neg (mt applies_iff.1 here)]
    rw [replace, atOnce_copied none]
    exact congrArg (c :: ·) (ih later)

def writers (rules : List Substitution) : List Substitution :=
  rules.filter fun s => !s.replacement.isEmpty

def droppers (rules : List Substitution) : List Substitution :=
  rules.filter (·.replacement.isEmpty)

/-- A pass that only drops something, and a pass of the same chain that writes something, which adds
nothing to be dropped. -/
structure Spares (writer dropper : Substitution) : Prop where
  outside : Clear (writer.replacement.map dropper.fold) (dropper.pattern.map dropper.fold)
  free : Outside ((dropper.pattern.take 1).map dropper.fold) (writer.replacement.map dropper.fold)

instance (writer dropper : Substitution) : Decidable (Spares writer dropper) :=
  decidable_of_iff
    (Clear (writer.replacement.map dropper.fold) (dropper.pattern.map dropper.fold) ∧
      Outside ((dropper.pattern.take 1).map dropper.fold) (writer.replacement.map dropper.fold))
    ⟨fun ⟨outside, free⟩ => ⟨outside, free⟩, fun h => ⟨h.outside, h.free⟩⟩

/-- What is to be dropped stands in the result only where it stood before. -/
theorem infix_of_infix_of_spares {rules : List Substitution} {s : Substitution}
    (spares : ∀ r ∈ rules, Spares r s) {t : Text}
    (found : s.pattern.map s.fold <:+: (atOnce rules t).map s.fold) :
    s.pattern.map s.fold <:+: t.map s.fold := by
  cases pattern : s.pattern with
  | nil => exact List.nil_infix
  | cons p ps =>
    rw [pattern] at found
    apply infix_of_infix_atOnce _ _ t found
    · intro r mem
      have outside := (spares r mem).outside
      rwa [pattern] at outside
    · intro r mem
      apply (spares r mem).free
      rw [pattern]
      exact List.mem_cons_self

/-- Passes that find nothing to drop can be left out of a chain. -/
theorem inTurn_eq_writers {rules : List Substitution} {t : Text}
    (spares : ∀ s ∈ rules, s.replacement = [] → ∀ r ∈ writers rules, Spares r s)
    (absent : ∀ s ∈ rules, s.replacement = [] → ¬ s.pattern.map s.fold <:+: t.map s.fold) :
    inTurn rules t = inTurn (writers rules) t := by
  induction rules generalizing t with
  | nil => rfl
  | cons r rules ih =>
    rw [inTurn_cons]
    by_cases drops : r.replacement = []
    · have same : writers (r :: rules) = writers rules :=
        List.filter_cons_of_neg (by simp [drops])
      rw [same] at spares ⊢
      rw [replace_of_absent (absent r List.mem_cons_self drops)]
      apply ih
      · intro s mem
        exact spares s (List.mem_cons_of_mem r mem)
      · intro s mem
        exact absent s (List.mem_cons_of_mem r mem)
    · have first : writers (r :: rules) = r :: writers rules :=
        List.filter_cons_of_pos (by simpa using drops)
      rw [first] at spares ⊢
      rw [inTurn_cons]
      apply ih
      · intro s mem empty w writes
        exact spares s (List.mem_cons_of_mem r mem) empty w (List.mem_cons_of_mem r writes)
      · intro s mem empty found
        have spared := spares s (List.mem_cons_of_mem r mem) empty r List.mem_cons_self
        apply absent s (List.mem_cons_of_mem r mem) empty
        exact infix_of_infix_of_spares (List.forall_mem_singleton.2 spared) found

theorem not_mem_replace {s : Substitution} {c : Char} {t : Text} (free : c ∉ s.replacement)
    (absent : c ∉ t) : c ∉ s.replace t := by
  rw [replace]
  induction t using atOnce_induction [s] with
  | nil => exact absent
  | applied d t r found ih =>
    obtain rfl := List.mem_singleton.1 (List.mem_of_find?_eq_some found)
    rw [atOnce_applied found, List.mem_append, not_or]
    exact ⟨free, ih fun later => absent (List.mem_cons_of_mem d (List.mem_of_mem_drop later))⟩
  | copied d t found ih =>
    obtain ⟨other, absent⟩ := not_or.1 (mt List.mem_cons.2 absent)
    rw [atOnce_copied found, List.mem_cons, not_or]
    exact ⟨other, ih absent⟩

/-- A character that a pass of the chain takes out, and that no pass writes, is gone. -/
theorem not_mem_inTurn {rules : List Substitution} {c : Char} (listed : dropped c ∈ rules)
    (free : ∀ r ∈ rules, c ∉ r.replacement) (t : Text) : c ∉ inTurn rules t := by
  obtain ⟨before, after, rfl⟩ := List.append_of_mem listed
  rw [inTurn_append, inTurn_cons]
  have here : c ∉ (dropped c).replace (inTurn before t) := by simp [replace_dropped]
  have later : ∀ r ∈ after, c ∉ r.replacement := fun r mem =>
    free r (List.mem_append_right before (List.mem_cons_of_mem _ mem))
  apply List.foldlRecOn after _ (motive := fun u : Text => c ∉ u) here
  intro u absent r mem
  exact not_mem_replace (later r mem) absent

theorem mem_replace {s : Substitution} {c : Char} {t : Text} (full : s.pattern ≠ [])
    (apart : c.toLower ∉ s.pattern.lower) (mem : c ∈ t) : c ∈ s.replace t := by
  rw [replace]
  induction t using atOnce_induction [s] with
  | nil => exact mem
  | applied d t r found ih =>
    obtain rfl := List.mem_singleton.1 (List.mem_of_find?_eq_some found)
    obtain ⟨x, split, occurs⟩ := exists_occurrence full (applies_of_find?_eq_some found)
    rw [split, ← List.cons_append, List.mem_append] at mem
    rw [atOnce_applied found]
    apply List.mem_append_right
    rcases mem with inside | later
    · have replaced : c.toLower ∈ Text.lower (d :: x) := List.mem_map_of_mem inside
      rw [lower_eq_of_map_fold occurs] at replaced
      exact absurd replaced apart
    · exact ih later
  | copied d t found ih =>
    rw [atOnce_copied found]
    rcases List.mem_cons.1 mem with rfl | later
    · exact List.mem_cons_self
    · exact List.mem_cons_of_mem d (ih later)

/-- A pass has written something, or has left the text as it was. -/
theorem replace_eq_self_or_subset (s : Substitution) (t : Text) :
    s.replace t = t ∨ s.replacement ⊆ s.replace t := by
  rw [replace]
  induction t using atOnce_induction [s] with
  | nil => exact .inl rfl
  | applied d t r found ih =>
    obtain rfl := List.mem_singleton.1 (List.mem_of_find?_eq_some found)
    rw [atOnce_applied found]
    exact .inr (List.subset_append_left _ _)
  | copied d t found ih =>
    rw [atOnce_copied found]
    rcases ih with same | written
    · exact .inl (congrArg (d :: ·) same)
    · exact .inr (List.subset_cons_of_subset d written)

/-- What is written in a result stays there to be seen, so where there is no sign of it, the result
was made by the passes that only drop something. -/
theorem inTurn_eq_droppers {rules : List Substitution} {signs : List Char} {t : Text}
    (full : ∀ r ∈ rules, r.pattern ≠ [])
    (kept : ∀ r ∈ rules, Outside (signs.map Char.toLower) r.pattern.lower)
    (signed : ∀ r ∈ writers rules, ¬ Outside signs r.replacement)
    (unsigned : Outside signs (inTurn rules t)) :
    inTurn rules t = inTurn (droppers rules) t := by
  induction rules generalizing t with
  | nil => rfl
  | cons r rules ih =>
    obtain ⟨fullHere, fullLater⟩ := List.forall_mem_cons.1 full
    obtain ⟨-, keptLater⟩ := List.forall_mem_cons.1 kept
    rw [inTurn_cons] at unsigned ⊢
    by_cases empty : r.replacement = []
    · have listed : droppers (r :: rules) = r :: droppers rules :=
        List.filter_cons_of_pos (by simp [empty])
      have skipped : writers (r :: rules) = writers rules :=
        List.filter_cons_of_neg (by simp [empty])
      rw [skipped] at signed
      rw [listed, inTurn_cons]
      exact ih fullLater keptLater signed unsigned
    · have skipped : droppers (r :: rules) = droppers rules :=
        List.filter_cons_of_neg (by simpa using empty)
      have listed : writers (r :: rules) = r :: writers rules :=
        List.filter_cons_of_pos (by simpa using empty)
      rw [listed] at signed
      rw [skipped]
      obtain ⟨signedHere, signedLater⟩ := List.forall_mem_cons.1 signed
      rcases replace_eq_self_or_subset r t with same | written
      · rw [same] at unsigned ⊢
        exact ih fullLater keptLater signedLater unsigned
      · exfalso
        apply signedHere
        intro c sign inside
        apply unsigned c sign
        apply List.foldlRecOn rules _ (motive := fun u : Text => c ∈ u) (written inside)
        intro u mem s listed
        exact mem_replace (fullLater s listed)
          (keptLater s listed _ (List.mem_map_of_mem sign)) mem

end Substitution

theorem Text.withoutBreaks_eq (t : Text) :
    t.withoutBreaks = inTurn [dropped '\n', dropped '\r'] t := by
  rw [inTurn_cons, inTurn_cons, inTurn_nil, replace_dropped, replace_dropped, List.filter_filter]
  exact List.filter_congr fun c _ => Bool.and_comm _ _

/-- The passes that a value for an Apple document goes through. -/
def Apple.passes : List Substitution :=
  [escapedQuote, copyrightSign, dropped '\n', dropped '\r'] ++ placeholders
    ++ [Markup.opening [], Markup.closing []]

/-- The passes that a value for a web document goes through. -/
def Web.passes : List Substitution :=
  [copyrightSign, dropped '\n', dropped '\r', Markup.opening [], Markup.closing []]

theorem Apple.respelled_normalized (value : Text) :
    respelled value.normalized = inTurn passes value := by
  rw [respelled, Text.normalized, Text.withoutBreaks_eq]
  rfl

theorem Web.normalized_eq_inTurn (value : Text) : normalized value = inTurn passes value := by
  rw [normalized, Text.withoutBreaks_eq]
  rfl

/-- The markers of markup, as they are looked for in a text in small letters. -/
def markers : List Text := ["<html>".toList, "</html>".toList]

/-- What a rewriting is to leave none of: some texts as they are spelled, and markers in any
case. -/
def Unfinished (spelled : List Text) (t : Text) : Prop := t ∈ spelled ∨ t.lower ∈ markers

structure Undivided (value : Text) : Prop where
  breaks : '\n' ∉ value ∧ '\r' ∉ value
  markers : ∀ m ∈ markers, ¬ m <:+: value.lower

/-- What a rewriting makes of a value: a text without line breaks, in which something unfinished is
left exactly if a part of the value becomes it. Such a part is what is left, but with line breaks or
markers between, so nothing is left if the value is undivided. -/
structure Finishes (rewrite : Text → Text) (spelled : List Text) (value : Text) : Prop where
  unbroken : '\n' ∉ rewrite value ∧ '\r' ∉ rewrite value
  left_iff : ∀ rest, Unfinished spelled rest →
    (rest <:+: rewrite value ↔ ∃ part, part <:+: value ∧ rewrite part = rest)
  divided : ∀ part rest, Unfinished spelled rest → rewrite part = rest →
    Markup.remove part.withoutBreaks = rest
  none_left : Undivided value → ∀ rest, Unfinished spelled rest → ¬ rest <:+: rewrite value

/-- Characters that patterns have at their beginning only, and those that they have at their end
only. -/
def firstMarks : List Char := ['(', '%', '$', '<']

def lastMarks : List Char := [')', 's', '>']

/-- Characters that the passes write and do not look for. -/
def signs : List Char := ['\\', '©', '@']

def drops : List Substitution :=
  [dropped '\n', dropped '\r', Markup.opening [], Markup.closing []]

/-- A chain that looks for some spellings and drops line breaks and markers, and whose other passes
are not in each other's way and leave a sign where they write. -/
structure Tidy (spelled : List Text) (rules : List Substitution) : Prop where
  respects : ∀ r ∈ rules, Respects firstMarks lastMarks r
  framed : ∀ t ∈ spelled, BeginsIn firstMarks t ∧ EndsIn lastMarks t
  dropping : droppers rules = drops
  spares : ∀ s ∈ drops, ∀ r ∈ writers rules, Spares r s
  independent : (writers rules).Pairwise Independent
  searched : ∀ t ∈ spelled, ∃ s ∈ writers rules, s.pattern = t ∧ s.anyCase = false ∧
    ∀ r ∈ writers rules, Clear t.lower r.replacement.lower ∧ Clear r.replacement.lower t.lower.tail
  kept : ∀ r ∈ rules, Outside (signs.map Char.toLower) r.pattern.lower
  signed : ∀ r ∈ writers rules, ¬ Outside signs r.replacement
  unsigned : ∀ t ∈ spelled, Outside (signs.map Char.toLower) t.lower

theorem Unfinished.framed {spelled : List Text} {rules : List Substitution}
    (tidy : Tidy spelled rules) {t : Text} (h : Unfinished spelled t) :
    Framed firstMarks lastMarks t := by
  rcases h with listed | marker
  · exact ⟨(tidy.framed t listed).1, (tidy.framed t listed).2⟩
  · have ends : ∀ m ∈ markers, m.lower = m ∧ BeginsIn firstMarks m ∧ EndsIn lastMarks m := by
      decide
    obtain ⟨small, begins, ends⟩ := ends t.lower marker
    exact ⟨begins.congr small, ends.congr small⟩

theorem Unfinished.unsigned {spelled : List Text} {rules : List Substitution}
    (tidy : Tidy spelled rules) {t : Text} (h : Unfinished spelled t) : Outside signs t := by
  have small : Outside (signs.map Char.toLower) t.lower := by
    rcases h with listed | marker
    · exact tidy.unsigned t listed
    · have plain : ∀ m ∈ markers, Outside (signs.map Char.toLower) m := by decide
      exact plain t.lower marker
  intro c sign inside
  exact small c.toLower (List.mem_map_of_mem sign) (List.mem_map_of_mem inside)

/-- In an undivided value there is nothing to drop. -/
theorem Undivided.absent {value : Text} (h : Undivided value) :
    ∀ s ∈ drops, ¬ s.pattern.map s.fold <:+: value.map s.fold := by
  have break_absent {c : Char} (absent : c ∉ value) :
      ¬ (dropped c).pattern.map (dropped c).fold <:+: value.map (dropped c).fold := by
    intro found
    have inside : c ∈ value.map id := found.subset List.mem_cons_self
    rw [List.map_id] at inside
    exact absent inside
  simp only [drops, List.forall_mem_cons]
  exact ⟨break_absent h.breaks.1, break_absent h.breaks.2, h.markers _ (by decide),
    h.markers _ (by decide), by simp⟩

theorem inTurn_drops (t : Text) : inTurn drops t = Markup.remove t.withoutBreaks := by
  rw [Text.withoutBreaks_eq]
  rfl

theorem Tidy.finishes {spelled : List Text} {rules : List Substitution}
    (tidy : Tidy spelled rules) (value : Text) : Finishes (inTurn rules) spelled value := by
  have full : ∀ r ∈ rules, r.pattern ≠ [] := fun r mem => (tidy.respects r mem).full
  constructor
  case unbroken =>
    have gone {c : Char} (listed : dropped c ∈ drops) : c ∉ inTurn rules value := by
      have inside : dropped c ∈ rules := by
        rw [← tidy.dropping] at listed
        exact (List.mem_filter.1 listed).1
      apply not_mem_inTurn inside
      intro r mem written
      by_cases empty : r.replacement = []
      · rw [empty] at written
        cases written
      · have writes : r ∈ writers rules := List.mem_filter.2 ⟨mem, by simpa using empty⟩
        have free := (tidy.spares _ listed r writes).free c List.mem_cons_self
        simp [dropped, fold] at free
        exact free written
    exact ⟨gone (by decide), gone (by decide)⟩
  case left_iff =>
    intro rest unfinished
    exact (local_inTurn tidy.respects).infix_iff (unfinished.framed tidy) value
  case divided =>
    rintro part _ unfinished rfl
    have dropping := inTurn_eq_droppers full tidy.kept tidy.signed (unfinished.unsigned tidy)
    rw [dropping, tidy.dropping, inTurn_drops]
  case none_left =>
    intro undivided rest unfinished found
    have only : ∀ s ∈ rules, s.replacement = [] → s ∈ drops := by
      intro s mem empty
      rw [← tidy.dropping]
      exact List.mem_filter.2 ⟨mem, by simp [empty]⟩
    have absent : ∀ s ∈ rules, s.replacement = [] → ¬ s.pattern.map s.fold <:+: value.map s.fold :=
      fun s mem empty => undivided.absent s (only s mem empty)
    have spares : ∀ s ∈ rules, s.replacement = [] → ∀ r ∈ writers rules, Spares r s :=
      fun s mem empty => tidy.spares s (only s mem empty)
    have fullWriters : ∀ s ∈ writers rules, s.pattern ≠ [] :=
      fun s mem => full s (List.mem_filter.1 mem).1
    rw [inTurn_eq_writers spares absent, inTurn_eq_atOnce fullWriters tidy.independent] at found
    rcases unfinished with listed | marker
    · obtain ⟨s, writes, rfl, sensitive, apart⟩ := tidy.searched rest listed
      apply not_infix_atOnce writes ⟨sensitive, fullWriters s writes⟩ _ _ value found
      · intro r mem
        exact (apart r mem).1
      · intro r mem
        exact (apart r mem).2
    · obtain ⟨s, listed, spelling⟩ : ∃ s ∈ drops, rest.map s.fold = s.pattern.map s.fold := by
        simp only [markers, List.mem_cons, List.not_mem_nil, or_false] at marker
        rcases marker with first | last
        · exact ⟨Markup.opening [], by decide, first.trans (by decide)⟩
        · exact ⟨Markup.closing [], by decide, last.trans (by decide)⟩
      have here := found.map s.fold
      rw [spelling] at here
      exact undivided.absent s listed (infix_of_infix_of_spares (tidy.spares s listed) here)

theorem Apple.tidy_passes : Tidy ["(c)".toList, "%s".toList, "$s".toList] passes :=
  ⟨by decide, by decide, rfl, by decide, by decide, by decide, by decide, by decide, by decide⟩

theorem Web.tidy_passes : Tidy ["(c)".toList] passes :=
  ⟨by decide, by decide, rfl, by decide, by decide, by decide, by decide, by decide, by decide⟩

/-- **What is left unfinished was unfinished in a part of the value.** No line break is left in a
value for an Apple or a web document; a copyright sign in ASCII, a placeholder for a string or a
marker is left exactly if some part of the value is rewritten to it, which it is once the line
breaks and markers inside are dropped; and none is left of a value that has neither. -/
theorem rewriting_finishes (value : Text) :
    Finishes (fun value => Apple.respelled value.normalized)
        ["(c)".toList, "%s".toList, "$s".toList] value ∧
      Finishes Web.normalized ["(c)".toList] value := by
  have apple : (fun value : Text => Apple.respelled value.normalized) = inTurn Apple.passes :=
    funext Apple.respelled_normalized
  have web : Web.normalized = inTurn Web.passes := funext Web.normalized_eq_inTurn
  rw [apple, web]
  exact ⟨Apple.tidy_passes.finishes value, Web.tidy_passes.finishes value⟩

/-- A value with something of each kind to be rewritten, and nothing to be dropped. -/
theorem rewriting_finishes_of_undivided :
    let value : Text := "(c) %s of $s: \"5 < 6\" </b>".toList
    Undivided value ∧ ∀ rest, Unfinished ["(c)".toList, "%s".toList, "$s".toList] rest →
      ¬ rest <:+: Apple.respelled value.normalized := by
  intro value
  have undivided : Undivided value := ⟨by decide, by decide⟩
  exact ⟨undivided, (rewriting_finishes value).1.none_left undivided⟩

/-- Line breaks and markers are dropped after the patterns that they stand in were looked for. Of
two patterns with a line break inside, the one that is looked for later is found. -/
theorem halves_brought_together :
    Apple.respelled (Text.normalized "(\nc) %\ns".toList) = "(c) %@".toList ∧
      Apple.respelled (Text.normalized "%<html>s</html>".toList) = "%s".toList ∧
      Web.normalized "<<html>HTML>(<html>c</html>)".toList = "<HTML>(c)".toList := by
  decide

end Phrasebook

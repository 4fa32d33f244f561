import Phrasebook.Proofs.AndroidText

/-!
# CDATA sections in Android elements

A value that begins markup somewhere is escaped by six independent passes as any other is, and the
last two replace its markers. They replace each marker where it stands, so whether the result is
well formed is decided in the value: `escape_wellFormed_iff` says that it is if and only if each
section that begins there ends, and nothing outside of them is an angle bracket that opens or the
end of a section.
-/

namespace Phrasebook

namespace Xml

def sectionStart : Text := "<![CDATA[".toList

def sectionEnd : Text := "]]>".toList

end Xml

namespace Android

open Substitution Xml

def entities : List Text := ["&amp;".toList, "&#8230;".toList]

/-- Whether the rest of an element is well formed, where `inside` tells whether a section is open.
Neither the start nor the end of a section can begin inside the other, so it is enough to see each
at its first character. -/
def wellFormed : (inside : Bool) → Text → Bool
  | inside, [] => !inside
  | true, c :: t => wellFormed (!sectionEnd.isPrefixOf (c :: t)) t
  | false, c :: t =>
    if sectionStart.isPrefixOf (c :: t) then wellFormed true t
    else
      c != '<' && !sectionEnd.isPrefixOf (c :: t) &&
        (c != '&' || entities.any (·.isPrefixOf (c :: t))) && wellFormed false t

def startsSection (t : Text) : Bool :=
  (Markup.opening sectionStart).applies t || sectionStart.isPrefixOf t

def endsSection (t : Text) : Bool :=
  (Markup.closing sectionEnd).applies t || sectionEnd.isPrefixOf t

/-- Whether each section that begins in the rest of a value ends, with no angle bracket that opens
and no end of a section outside. -/
def enclosed : (inside : Bool) → Text → Bool
  | inside, [] => !inside
  | true, c :: t => enclosed (!endsSection (c :: t)) t
  | false, c :: t =>
    if startsSection (c :: t) then enclosed true t
    else c != '<' && !sectionEnd.isPrefixOf (c :: t) && enclosed false t

/-! ## Values with markup in one pass -/

/-- No escape takes a marker away: none can begin within one. -/
theorem present_escapes_of_present {value : Text} (marked : Markup.present value = true) :
    Markup.present (inTurn escapes value) = true := by
  rw [inTurn_eq_atOnce (by decide) (by decide)]
  exact Text.contains_iff.2 <|
    infix_lower_atOnce (by decide) (by decide) (by decide) value (Text.contains_iff.1 marked)

/-- The six passes over a value with markup are one. -/
theorem escape_eq_atOnce_of_present {value : Text} (marked : Markup.present value = true) :
    escape value = atOnce (escapes ++ sections) value := by
  rw [escape, present_escapes_of_present marked]
  exact (inTurn_append escapes sections value).symm.trans
    (inTurn_eq_atOnce (by decide) (by decide) value)

/-! ## What opens and closes nothing -/

/-- Not even in another case does the start or the end of a section begin with the character. -/
def isInert (c : Char) : Bool := c.toLower != '<' && c.toLower != ']'

theorem isInert_iff {c : Char} : isInert c = true ↔ c.toLower ≠ '<' ∧ c.toLower ≠ ']' := by
  simp [isInert]

theorem ne_of_isInert {c : Char} (h : isInert c = true) : c ≠ '<' ∧ c ≠ ']' := by
  constructor <;> rintro rfl <;> cases h

theorem not_isPrefixOf_of_ne {p c : Char} (h : c ≠ p) (pattern t : Text) :
    (p :: pattern).isPrefixOf (c :: t) = false := by
  rw [List.isPrefixOf, beq_false_of_ne h.symm, Bool.false_and]

theorem startsSection_eq_false {c : Char} (h : c.toLower ≠ '<') (t : Text) :
    startsSection (c :: t) = false := by
  have marker : ¬ (Markup.opening sectionStart).applies (c :: t) = true := fun applied =>
    h (List.cons_prefix_cons.1 (lower_prefix_of_applies applied)).1.symm
  have raw : sectionStart.isPrefixOf (c :: t) = false :=
    not_isPrefixOf_of_ne (by rintro rfl; exact h rfl) _ t
  simp [startsSection, marker, raw]

theorem endsSection_eq_false {c : Char} (h : isInert c = true) (t : Text) :
    endsSection (c :: t) = false := by
  have marker : ¬ (Markup.closing sectionEnd).applies (c :: t) = true := fun applied =>
    (isInert_iff.1 h).1 (List.cons_prefix_cons.1 (lower_prefix_of_applies applied)).1.symm
  have raw : sectionEnd.isPrefixOf (c :: t) = false := not_isPrefixOf_of_ne (ne_of_isInert h).2 _ t
  simp [endsSection, marker, raw]

theorem enclosed_append {x : Text} (inert : x.all isInert = true) (inside : Bool) (t : Text) :
    enclosed inside (x ++ t) = enclosed inside t := by
  induction x with
  | nil => rfl
  | cons c x ih =>
    rw [List.all_cons, Bool.and_eq_true] at inert
    obtain ⟨first, rest⟩ := inert
    rw [← ih rest, List.cons_append]
    cases inside with
    | true => rw [enclosed, endsSection_eq_false first, Bool.not_false]
    | false =>
      obtain ⟨bracket, close⟩ := ne_of_isInert first
      have raw : sectionEnd.isPrefixOf (c :: (x ++ t)) = false := not_isPrefixOf_of_ne close _ _
      rw [enclosed, startsSection_eq_false (isInert_iff.1 first).1, raw]
      simp [bracket]

theorem wellFormed_append {x : Text} (inert : x.all (fun c => isInert c && c != '&') = true)
    (inside : Bool) (t : Text) : wellFormed inside (x ++ t) = wellFormed inside t := by
  induction x with
  | nil => rfl
  | cons c x ih =>
    rw [List.all_cons, Bool.and_eq_true, Bool.and_eq_true, bne_iff_ne] at inert
    obtain ⟨⟨first, letter⟩, rest⟩ := inert
    obtain ⟨bracket, close⟩ := ne_of_isInert first
    have start : sectionStart.isPrefixOf (c :: (x ++ t)) = false :=
      not_isPrefixOf_of_ne bracket _ _
    have ends : sectionEnd.isPrefixOf (c :: (x ++ t)) = false := not_isPrefixOf_of_ne close _ _
    rw [← ih rest, List.cons_append]
    cases inside with
    | true => rw [wellFormed, ends, Bool.not_false]
    | false => simp [wellFormed, start, ends, bracket, letter]

/-! ## Each replacement where it stands -/

theorem wellFormed_escaped {r : Substitution} (mem : r ∈ escapes) (inside : Bool) (t : Text) :
    wellFormed inside (r.replacement ++ t) = wellFormed inside t := by
  have reference (name : Text) (plain : name.all (fun c => isInert c && c != '&') = true)
      (known : '&' :: name ∈ entities) :
      wellFormed inside ('&' :: name ++ t) = wellFormed inside t := by
    rw [← wellFormed_append plain inside t, List.cons_append]
    have start : sectionStart.isPrefixOf ('&' :: (name ++ t)) = false :=
      not_isPrefixOf_of_ne (by decide) _ _
    have ends : sectionEnd.isPrefixOf ('&' :: (name ++ t)) = false :=
      not_isPrefixOf_of_ne (by decide) _ _
    have named : entities.any (·.isPrefixOf ('&' :: (name ++ t))) = true :=
      List.any_eq_true.2 ⟨_, known, List.isPrefixOf_iff_prefix.2 (List.prefix_append _ t)⟩
    cases inside with
    | true => rw [wellFormed, ends, Bool.not_false]
    | false => simp [wellFormed, start, ends, named]
  simp only [escapes, List.mem_cons, List.not_mem_nil, or_false] at mem
  rcases mem with rfl | rfl | rfl | rfl
  · exact reference "amp;".toList (by decide) (by decide)
  · exact wellFormed_append (x := "\\'".toList) (by decide) inside t
  · exact wellFormed_append (x := "\\@".toList) (by decide) inside t
  · exact reference "#8230;".toList (by decide) (by decide)

theorem wellFormed_sectionStart (inside : Bool) (t : Text) :
    wellFormed inside (sectionStart ++ t) = wellFormed true t := by
  have rest : wellFormed true ("![CDATA[".toList ++ t) = wellFormed true t :=
    wellFormed_append (by decide) true t
  cases inside with
  | true => exact rest
  | false => exact rest

theorem wellFormed_sectionEnd (inside : Bool) (t : Text) :
    wellFormed inside (sectionEnd ++ t) = (inside && wellFormed false t) := by
  cases inside with
  | true => rfl
  | false => rfl

/-! ## Each marker where it stands -/

/-- Only letters change when a text is made small, and they become letters. -/
theorem eq_of_toLower_eq {c d : Char} (h : c.toLower = d) (other : d.isLower = false) : c = d := by
  rcases Text.toLower_cases c with ⟨-, lower⟩ | ⟨-, same⟩
  · rw [h, other] at lower
    cases lower
  · exact same.symm.trans h

theorem isInert_of_lower {x y : Text} (same : Text.lower x = y)
    (h : y.all (fun d => d != '<' && d != ']') = true) : x.all isInert = true := by
  rwa [← same, Text.lower, List.all_map] at h

/-- Two patterns that apply in one place agree as far as both go. -/
theorem not_applies_of_not_meets {s s' : Substitution}
    (apart : ¬ Meets s.pattern.lower s'.pattern.lower) {t : Text} (h : s.applies t = true) :
    s'.applies t = false := by
  refine Bool.eq_false_iff.2 fun applied => apart ?_
  exact List.prefix_or_prefix_of_prefix (lower_prefix_of_applies h)
    (lower_prefix_of_applies applied)

theorem enclosed_opening {c : Char} {t : Text}
    (h : (Markup.opening sectionStart).applies (c :: t) = true) (inside : Bool) :
    enclosed inside (c :: t) = enclosed true (t.drop 5) := by
  obtain ⟨x, split, occurs⟩ := exists_occurrence (by decide) h
  have small : Text.lower (c :: x) = "<html>".toList := lower_eq_of_map_fold occurs
  obtain ⟨first, rest⟩ := List.cons.inj small
  have inert := isInert_of_lower rest (by decide)
  have after : enclosed true t = enclosed true (t.drop 5) := by
    conv_lhs => rw [split]
    exact enclosed_append inert true _
  rw [← after]
  cases inside with
  | false =>
    have starts : startsSection (c :: t) = true := by rw [startsSection, h, Bool.true_or]
    rw [enclosed, if_pos starts]
  | true =>
    have marker : (Markup.closing sectionEnd).applies (c :: t) = false :=
      not_applies_of_not_meets (by decide) h
    have raw : sectionEnd.isPrefixOf (c :: t) = false :=
      not_isPrefixOf_of_ne (by rintro rfl; cases first) _ t
    rw [enclosed, endsSection, marker, raw]
    rfl

theorem enclosed_closing {c : Char} {t : Text}
    (h : (Markup.closing sectionEnd).applies (c :: t) = true) (inside : Bool) :
    enclosed inside (c :: t) = (inside && enclosed false (t.drop 6)) := by
  obtain ⟨x, split, occurs⟩ := exists_occurrence (by decide) h
  have small : Text.lower (c :: x) = "</html>".toList := lower_eq_of_map_fold occurs
  obtain ⟨first, rest⟩ := List.cons.inj small
  cases inside with
  | true =>
    have ends : endsSection (c :: t) = true := by rw [endsSection, h, Bool.true_or]
    rw [enclosed, ends]
    conv_lhs => rw [split]
    exact enclosed_append (isInert_of_lower rest (by decide)) false _
  | false =>
    have marker : (Markup.opening sectionStart).applies (c :: t) = false :=
      not_applies_of_not_meets (by decide) h
    have raw : sectionStart.isPrefixOf (c :: t) = false :=
      show applies ⟨sectionStart, [], false⟩ (c :: t) = false from
        not_applies_of_not_meets (by decide) h
    obtain rfl : c = '<' := eq_of_toLower_eq first (by decide)
    rw [enclosed, startsSection, marker, raw]
    rfl

theorem enclosed_escaped {r : Substitution} (mem : r ∈ escapes) {c : Char} {t : Text}
    (h : r.applies (c :: t) = true) (inside : Bool) :
    enclosed inside (c :: t) = enclosed inside (t.drop (r.pattern.length - 1)) := by
  have full : ∀ r ∈ escapes, r.pattern ≠ [] := by decide
  have inert : ∀ r ∈ escapes,
      (Text.lower r.pattern).all (fun d => d != '<' && d != ']') = true := by decide
  obtain ⟨x, split, occurs⟩ := exists_occurrence (full r mem) h
  conv_lhs => rw [split]
  exact enclosed_append (x := c :: x)
    (isInert_of_lower (lower_eq_of_map_fold occurs) (inert r mem)) inside _

/-! ## Well-formed elements -/

/-- After a character that is copied, the rest of a mark is left as it was, and none is made. -/
theorem isPrefixOf_cons_atOnce {x : Text}
    (outside : ∀ r ∈ escapes ++ sections, Clear r.replacement x)
    (clear : ∀ r ∈ escapes ++ sections, Clear r.pattern.lower x.lower) (p c : Char) (t : Text) :
    (p :: x).isPrefixOf (c :: atOnce (escapes ++ sections) t) = (p :: x).isPrefixOf (c :: t) := by
  rw [Bool.eq_iff_iff, List.isPrefixOf_iff_prefix, List.isPrefixOf_iff_prefix,
    List.cons_prefix_cons, List.cons_prefix_cons, prefix_atOnce_iff outside clear]

/-- What the pass writes is read as what stands in the value. -/
theorem wellFormed_atOnce (value : Text) (inside : Bool) :
    wellFormed inside (atOnce (escapes ++ sections) value) = enclosed inside value := by
  induction value using atOnce_induction (escapes ++ sections) generalizing inside with
  | nil => rfl
  | applied c t r found ih =>
    have applied : r.applies (c :: t) = true := applies_of_find?_eq_some found
    rw [atOnce_applied found]
    rcases List.mem_append.1 (List.mem_of_find?_eq_some found) with escaped | marker
    · rw [wellFormed_escaped escaped, enclosed_escaped escaped applied, ih]
    · simp only [sections, List.mem_cons, List.not_mem_nil, or_false] at marker
      rcases marker with rfl | rfl
      · exact (wellFormed_sectionStart inside _).trans
          ((ih true).trans (enclosed_opening applied inside).symm)
      · exact (wellFormed_sectionEnd inside _).trans
          ((congrArg (inside && ·) (ih false)).trans (enclosed_closing applied inside).symm)
  | copied c t found ih =>
    have silent := List.find?_eq_none.1 found
    have start : sectionStart.isPrefixOf (c :: atOnce (escapes ++ sections) t) =
        sectionStart.isPrefixOf (c :: t) :=
      isPrefixOf_cons_atOnce (x := "![CDATA[".toList) (by decide) (by decide) '<' c t
    have ends : sectionEnd.isPrefixOf (c :: atOnce (escapes ++ sections) t) =
        sectionEnd.isPrefixOf (c :: t) :=
      isPrefixOf_cons_atOnce (x := "]>".toList) (by decide) (by decide) ']' c t
    rw [atOnce_copied found]
    cases inside with
    | true =>
      have marker : (Markup.closing sectionEnd).applies (c :: t) = false :=
        Bool.eq_false_iff.2 (silent _ (by decide))
      rw [wellFormed, enclosed, endsSection, marker, Bool.false_or, ih, ends]
    | false =>
      have marker : (Markup.opening sectionStart).applies (c :: t) = false :=
        Bool.eq_false_iff.2 (silent _ (by decide))
      have letter : (c != '&') = true := by
        refine bne_iff_ne.2 ?_
        rintro rfl
        exact silent ⟨['&'], "&amp;".toList, false⟩ (by decide) rfl
      rw [wellFormed, enclosed, startsSection, marker, Bool.false_or, ih, ih, start, ends, letter,
        Bool.true_or, Bool.and_true]

/-- **A value with markup is written well if and only if it is well enclosed.** Sections of the
element begin and end where those of the value do, and what stands outside of them is copied but
for its escapes. -/
theorem escape_wellFormed_iff {value : Text} (marked : Markup.present value = true) :
    wellFormed false (escape value) = true ↔ enclosed false value = true := by
  rw [escape_eq_atOnce_of_present marked, wellFormed_atOnce]

theorem escape_wellFormed_iff_of_each_case :
    let value := "Q&A... <HTML><b>it's</b> & @you</Html> > <html>]] </html>".toList
    Markup.present value = true ∧ enclosed false value = true ∧
      wellFormed false (escape value) = true := by
  intro value
  have marked : Markup.present value = true := by decide
  have closed : enclosed false value = true := by decide
  exact ⟨marked, closed, (escape_wellFormed_iff marked).2 closed⟩

/-- Outside of markup an angle bracket is copied, and markup that does not end leaves its section
open. -/
theorem escape_not_wellFormed :
    let bracket := "a < b <html>c</html>".toList
    let unclosed := "<html>a".toList
    Markup.present bracket = true ∧ Markup.present unclosed = true ∧
      escape bracket = "a < b <![CDATA[c]]>".toList ∧ wellFormed false (escape bracket) = false ∧
      escape unclosed = "<![CDATA[a".toList ∧ wellFormed false (escape unclosed) = false := by
  decide

end Android

end Phrasebook

import Phrasebook.Proofs.Locality
import Phrasebook.Proofs.Sections

/-!
# Escaping in a single pass

A value is escaped by six passes, one after the other, and they come to one scan over the value:
`escape_in_one_pass`. The order of the rules in such a scan does not matter when no two of them can
apply in one place (`atOnce_perm`). What stands in a text and cannot touch a pattern or a
replacement is found after a pass just where it was (`atOnce_eq_around_iff`), so no marker is made
or lost before the markers are replaced. Last, the passes are followed over the pieces of a text,
those that are copied from it and those that a pass has written: each pass replaces copied
characters only (`Piece.Spares`), and leaves what was written before it.
-/

namespace Phrasebook

namespace Substitution

/-! ## The order of rules -/

/-- If one place suits one rule at most, the rules can be tried in any order. -/
theorem atOnce_perm {rules other : List Substitution} (same : other.Perm rules)
    (apart : ∀ r ∈ rules, ∀ s ∈ rules, Meets r.pattern.lower s.pattern.lower → r = s) (t : Text) :
    atOnce other t = atOnce rules t := by
  have agree (u : Text) : other.find? (·.applies u) = rules.find? (·.applies u) := by
    cases first : rules.find? (·.applies u) with
    | none =>
      rw [List.find?_eq_none] at first ⊢
      intro r mem
      exact first r (same.mem_iff.1 mem)
    | some r =>
      have mem := List.mem_of_find?_eq_some first
      have applied : r.applies u = true := applies_of_find?_eq_some first
      have found : (other.find? (·.applies u)).isSome = true :=
        List.find?_isSome.2 ⟨r, same.mem_iff.2 mem, applied⟩
      obtain ⟨s, second⟩ := Option.isSome_iff_exists.1 found
      have begins := lower_prefix_of_applies (applies_of_find?_eq_some second)
      have meets := List.prefix_or_prefix_of_prefix begins (lower_prefix_of_applies applied)
      rw [second, apart s (same.mem_iff.1 (List.mem_of_find?_eq_some second)) r mem meets]
  induction t using atOnce_induction rules with
  | nil => rfl
  | applied c t r found ih => rw [atOnce_applied found, atOnce_applied ((agree _).trans found), ih]
  | copied c t found ih => rw [atOnce_copied found, atOnce_copied ((agree _).trans found), ih]

/-! ## What a pass goes around -/

/-- The rules have nothing to do with what another substitution looks for: they neither touch it nor
write any of it. -/
structure Unrelated (rules : List Substitution) (s : Substitution) : Prop where
  full : ∀ r ∈ rules, r.pattern ≠ []
  independent : ∀ r ∈ rules, Independent r s
  apart : ∀ r ∈ rules, Clear s.pattern.lower r.pattern.lower

instance (rules : List Substitution) (s : Substitution) : Decidable (Unrelated rules s) :=
  decidable_of_iff ((∀ r ∈ rules, r.pattern ≠ []) ∧ (∀ r ∈ rules, Independent r s) ∧
      ∀ r ∈ rules, Clear s.pattern.lower r.pattern.lower)
    ⟨fun ⟨full, independent, apart⟩ => ⟨full, independent, apart⟩,
      fun h => ⟨h.full, h.independent, h.apart⟩⟩

section

variable {rules : List Substitution} {s : Substitution} {m : Text}

theorem Unrelated.clear (h : Unrelated rules s) (occurs : m.lower = s.pattern.lower) :
    ∀ r ∈ rules, Clear r.pattern.lower m.lower := by
  intro r mem z ends full meets
  rw [List.mem_tails, occurs] at ends
  rcases hp : s.pattern.lower with _ | ⟨p, ps⟩
  · rw [hp] at ends
    exact full (List.suffix_nil.1 ends)
  · rw [hp] at ends
    rcases List.suffix_cons_iff.1 ends with rfl | within
    · have written : r.pattern.lower ≠ [] := mt List.map_eq_nil_iff.1 (h.full r mem)
      apply (h.apart r mem).not_meets written (List.suffix_refl _)
      rw [hp]
      exact meets.symm
    · apply (h.independent r mem).uncut.not_meets full ?_ meets
      rw [hp]
      exact within

theorem Unrelated.uncut (h : Unrelated rules s) (occurs : m.lower = s.pattern.lower)
    (x y : Text) : Uncut rules x (m ++ y) := by
  intro r mem z full _ applied
  rcases applies_append_cases applied with before | ⟨w, some, split, begins⟩
  · exact before
  · rw [lower_append, occurs] at begins
    have ends : w <:+ r.pattern.lower := split ▸ List.suffix_append _ w
    exact absurd (meets_of_begins begins).symm ((h.apart r mem).not_meets some ends)

/-- The pass goes over what is before and over what is after, and copies what is between. -/
theorem atOnce_around (h : Unrelated rules s) (occurs : m.lower = s.pattern.lower)
    (x y : Text) : atOnce rules (x ++ m ++ y) = atOnce rules x ++ m ++ atOnce rules y := by
  rw [List.append_assoc, atOnce_append_of_uncut (h.uncut occurs x y),
    atOnce_append_of_clear (h.clear occurs), List.append_assoc]

/-- What follows the first character is only there after the pass if it was copied. -/
theorem Unrelated.later_copied {c : Char} (h : Unrelated rules s)
    (occurs : Text.lower (c :: m) = s.pattern.lower) {t v : Text} (after : atOnce rules t = m ++ v) :
    ∃ y, t = m ++ y ∧ v = atOnce rules y := by
  have outside : ∀ r ∈ rules, Clear (r.replacement.map id) m := by
    intro r mem
    have unfinished := (h.independent r mem).unfinished
    rw [← occurs] at unfinished
    simpa [fold] using Clear.of_lower (u := m) unfinished ⟨[], [], false⟩
  have begins : m <+: (atOnce rules t).map id := by
    rw [List.map_id, after]
    exact List.prefix_append m v
  have before := prefix_of_prefix_atOnce outside begins
  rw [List.map_id] at before
  obtain ⟨y, rfl⟩ := before
  refine ⟨y, rfl, ?_⟩
  have clear : ∀ r ∈ rules, Clear r.pattern.lower (Text.lower m) := fun r mem =>
    (h.clear occurs r mem).suffix (List.suffix_cons _ _)
  rw [atOnce_append_of_clear clear] at after
  exact (List.append_cancel_left after).symm

/-- What the rules have nothing to do with stands after the pass where it stood before, and nowhere
else. -/
theorem atOnce_eq_around_iff (h : Unrelated rules s) (some : s.pattern ≠ [])
    (occurs : m.lower = s.pattern.lower) {t u v : Text} :
    atOnce rules t = u ++ m ++ v ↔
      ∃ x y, t = x ++ m ++ y ∧ u = atOnce rules x ∧ v = atOnce rules y := by
  constructor
  · intro after
    -- Where it stood is found by induction, and what the pass makes of the text before it is then
    -- what is left of the result.
    suffices place : ∃ x y, t = x ++ m ++ y ∧ v = atOnce rules y by
      obtain ⟨x, y, rfl, rfl⟩ := place
      rw [atOnce_around h occurs] at after
      refine ⟨x, y, rfl, ?_, rfl⟩
      exact (List.append_cancel_right (List.append_cancel_right after)).symm
    induction t using atOnce_induction rules generalizing u with
    | nil =>
      obtain ⟨-, rfl, -⟩ : u = [] ∧ m = [] ∧ v = [] := by simpa using after.symm
      exact absurd (List.map_eq_nil_iff.1 occurs.symm) some
    | applied c t r found ih =>
      have mem := List.mem_of_find?_eq_some found
      obtain ⟨x₀, split, -⟩ := exists_occurrence (h.full r mem) (applies_of_find?_eq_some found)
      rw [atOnce_applied found, List.append_assoc u] at after
      have ends : m ++ v <:+ r.replacement ++ atOnce rules (t.drop (r.pattern.length - 1)) :=
        ⟨u, after.symm⟩
      rcases suffix_append_cases ends with ⟨u', later⟩ | ⟨y, full, within, whole⟩
      · rw [← List.append_assoc] at later
        obtain ⟨x, y, rest, kept⟩ := ih later.symm
        exact ⟨c :: x₀ ++ x, y, by rw [split, rest]; simp, kept⟩
      · have begins : m <+: y ++ atOnce rules (t.drop (r.pattern.length - 1)) :=
          whole ▸ List.prefix_append m v
        have meets : Meets m.lower (Text.lower y) := (meets_of_begins begins).map Char.toLower
        rw [occurs] at meets
        exact absurd meets ((h.independent r mem).unbegun.not_meets (mt List.map_eq_nil_iff.1 full)
          (within.map Char.toLower))
    | copied c t found ih =>
      rw [atOnce_copied found] at after
      cases u with
      | cons d u =>
        obtain ⟨rfl, rest⟩ := List.cons.inj after
        obtain ⟨x, y, before, kept⟩ := ih rest
        exact ⟨c :: x, y, by rw [before]; rfl, kept⟩
      | nil =>
        cases m with
        | nil => exact absurd (List.map_eq_nil_iff.1 occurs.symm) some
        | cons d m =>
          obtain ⟨rfl, rest⟩ := List.cons.inj after
          obtain ⟨y, rfl, kept⟩ := h.later_copied occurs rest
          exact ⟨[], y, rfl, kept⟩
  · rintro ⟨x, y, rfl, rfl, rfl⟩
    exact atOnce_around h occurs x y

end

end Substitution

/-! ## Copied and written pieces -/

/-- A piece of a text that passes have gone over. -/
inductive Piece
  /-- A character of the text as it was before the first pass. -/
  | copied (c : Char)
  /-- What a pass has put in the place of copied characters. -/
  | written (text : Text)
deriving Repr, DecidableEq

namespace Piece

open Substitution

def text : Piece → Text
  | copied c => [c]
  | written t => t

def textOf (ps : List Piece) : Text := ps.flatMap text

/-- Some occurrences of the pattern in what was copied are replaced. All else is left, and so is
everything that was written before. -/
inductive Spares (s : Substitution) : List Piece → List Piece → Prop
  | nil : Spares s [] []
  | written (t : Text) {ps qs : List Piece} (rest : Spares s ps qs) :
      Spares s (.written t :: ps) (.written t :: qs)
  | copied (c : Char) {ps qs : List Piece} (rest : Spares s ps qs) :
      Spares s (.copied c :: ps) (.copied c :: qs)
  | replaced (x : Text) {ps qs : List Piece} (occurs : x.map s.fold = s.pattern.map s.fold)
      (rest : Spares s ps qs) : Spares s (x.map .copied ++ ps) (.written s.replacement :: qs)

/-- Passes one after the other. Each leaves of the text what the substitution makes of it, and
spares what was written before. -/
inductive SparesInTurn : List Substitution → List Piece → List Piece → Prop
  | nil (ps : List Piece) : SparesInTurn [] ps ps
  | cons {s : Substitution} {rules : List Substitution} {ps qs rs : List Piece}
      (spares : Spares s ps qs) (replaced : textOf qs = s.replace (textOf ps))
      (rest : SparesInTurn rules qs rs) : SparesInTurn (s :: rules) ps rs

inductive Traces (rules : List Substitution) : Text → List Piece → Prop
  | nil : Traces rules [] []
  | applied {c : Char} {t : Text} {s : Substitution} {ps : List Piece}
      (found : rules.find? (·.applies (c :: t)) = some s)
      (rest : Traces rules (t.drop (s.pattern.length - 1)) ps) :
      Traces rules (c :: t) (.written s.replacement :: ps)
  | copied {c : Char} {t : Text} {ps : List Piece}
      (found : rules.find? (·.applies (c :: t)) = none) (rest : Traces rules t ps) :
      Traces rules (c :: t) (.copied c :: ps)

theorem textOf_map_copied (t : Text) : textOf (t.map .copied) = t := by
  induction t with
  | nil => rfl
  | cons c t ih => exact congrArg (c :: ·) ih

theorem traces_nil (t : Text) : Traces [] t (t.map .copied) := by
  induction t with
  | nil => exact .nil
  | cons c t ih => exact .copied rfl ih

section

variable {rules : List Substitution} {s : Substitution} {t : Text} {ps : List Piece}

theorem SparesInTurn.textOf_eq {qs : List Piece} (h : SparesInTurn rules ps qs) :
    textOf qs = inTurn rules (textOf ps) := by
  induction h with
  | nil => rfl
  | cons _ replaced _ ih => rw [ih, replaced, inTurn_cons]

theorem Traces.textOf_eq (h : Traces rules t ps) : textOf ps = atOnce rules t := by
  induction h with
  | nil => rfl
  | applied found _ ih =>
    rw [atOnce_applied found, ← ih]
    rfl
  | copied found _ ih =>
    rw [atOnce_copied found, ← ih]
    rfl

theorem Traces.silent {x : Text}
    (silent : ∀ y ≠ [], y <:+ x → ∀ r ∈ rules, ¬ r.applies (y ++ t) = true)
    (h : Traces rules (x ++ t) ps) : ∃ qs, ps = x.map .copied ++ qs ∧ Traces rules t qs := by
  induction x generalizing ps with
  | nil => exact ⟨ps, rfl, h⟩
  | cons c x ih =>
    have none : rules.find? (·.applies (c :: (x ++ t))) = none :=
      List.find?_eq_none.2 (silent (c :: x) (List.cons_ne_nil c x) (List.suffix_refl _))
    cases h with
    | applied found _ => cases none.symm.trans found
    | copied _ rest =>
      obtain ⟨qs, rfl, after⟩ :=
        ih (fun y full ends => silent y full (ends.trans (List.suffix_cons c x))) rest
      exact ⟨qs, rfl, after⟩

/-- One more rule only replaces what the rules before it have copied, if none of them can begin
inside its pattern. -/
theorem Traces.exists_spares (full : s.pattern ≠ [])
    (uncut : ∀ r ∈ rules, Clear r.pattern.lower s.pattern.lower.tail) (h : Traces rules t ps) :
    ∃ qs, Spares s ps qs ∧ Traces (rules ++ [s]) t qs := by
  induction t using atOnce_induction (rules ++ [s]) generalizing ps with
  | nil =>
    cases h
    exact ⟨[], .nil, .nil⟩
  | applied c t r found ih =>
    have both := found
    rw [List.find?_append] at found
    cases h with
    | applied first rest =>
      obtain rfl : _ = r := by simpa [first] using found
      obtain ⟨qs, spares, traces⟩ := ih rest
      exact ⟨_, .written _ spares, .applied both traces⟩
    | copied first rest =>
      have last : s.applies (c :: t) = true ∧ s = r := by
        simpa [first, List.find?_cons_eq_some] using found
      obtain ⟨applied, rfl⟩ := last
      obtain ⟨x, split, occurs⟩ := exists_occurrence full applied
      have inside : Text.lower x = (Text.lower s.pattern).tail :=
        congrArg List.tail (lower_eq_of_map_fold occurs)
      rw [split] at rest
      obtain ⟨qs, rfl, after⟩ := Traces.silent (fun y some ends r hr =>
        not_applies_of_clear (inside ▸ uncut r hr) _ y some ends) rest
      obtain ⟨qs', spares, traces⟩ := ih after
      exact ⟨_, .replaced (c :: x) occurs spares, .applied both traces⟩
  | copied c t found ih =>
    have both := found
    rw [List.find?_append] at found
    obtain ⟨first, -⟩ := Option.or_eq_none_iff.1 found
    cases h with
    | applied other _ => cases first.symm.trans other
    | copied _ rest =>
      obtain ⟨qs, spares, traces⟩ := ih rest
      exact ⟨_, .copied c spares, .copied both traces⟩

theorem Traces.exists_sparesInTurn {later : List Substitution}
    (full : ∀ s ∈ later, s.pattern ≠ []) (independent : (rules ++ later).Pairwise Independent)
    (h : Traces rules t ps) : ∃ qs, SparesInTurn later ps qs := by
  induction later generalizing rules ps with
  | nil => exact ⟨ps, .nil ps⟩
  | cons s later ih =>
    obtain ⟨one, others⟩ := List.forall_mem_cons.1 full
    rw [List.append_cons] at independent
    have before : ∀ r ∈ rules, Independent r s := fun r mem =>
      (List.pairwise_append.1 (List.pairwise_append.1 independent).1).2.2 r mem s
        List.mem_cons_self
    obtain ⟨qs, spares, traces⟩ := h.exists_spares one fun r mem => (before r mem).uncut
    obtain ⟨rs, rest⟩ := ih others independent traces
    have replaced : textOf qs = s.replace (textOf ps) := by
      rw [traces.textOf_eq, h.textOf_eq, replace_atOnce one before]
    exact ⟨rs, .cons spares replaced rest⟩

end

/-- Independent passes never rewrite what one of them has written. -/
theorem exists_sparesInTurn {rules : List Substitution} (full : ∀ s ∈ rules, s.pattern ≠ [])
    (independent : rules.Pairwise Independent) (t : Text) :
    ∃ ps, SparesInTurn rules (t.map .copied) ps ∧ textOf ps = inTurn rules t := by
  obtain ⟨ps, spared⟩ := Traces.exists_sparesInTurn full
    (show ([] ++ rules).Pairwise Independent from independent) (traces_nil t)
  exact ⟨ps, spared, by rw [spared.textOf_eq, textOf_map_copied]⟩

end Piece

/-! ## Android -/

def Markup.IsMarker (m : Text) : Prop :=
  m.lower = "<html>".toList ∨ m.lower = "</html>".toList

instance (m : Text) : Decidable (Markup.IsMarker m) := inferInstanceAs (Decidable (_ ∨ _))

namespace Android

open Substitution

/-- The passes that a value goes through, in their order. -/
def passes (marked : Bool) : List Substitution :=
  escapes ++ if marked then sections else brackets

/-- The rules of the scan, in the order in which they are tried at each place. -/
def scanned (marked : Bool) : List Substitution :=
  [⟨"...".toList, "&#8230;".toList, false⟩, ⟨['&'], "&amp;".toList, false⟩,
    ⟨['\''], "\\'".toList, false⟩, ⟨['@'], "\\@".toList, false⟩] ++
  if marked then
    [⟨"<html>".toList, "<![CDATA[".toList, true⟩, ⟨"</html>".toList, "]]>".toList, true⟩]
  else [⟨['<'], "&lt;".toList, false⟩, ⟨['>'], "&gt;".toList, false⟩]

theorem present_inTurn_escapes (value : Text) :
    Markup.present (inTurn escapes value) = Markup.present value := by
  cases marked : Markup.present value with
  | true => exact present_escapes_of_present marked
  | false => exact present_escapes marked

theorem escape_eq_inTurn (value : Text) :
    escape value = inTurn (passes (Markup.present value)) value := by
  rw [escape, present_inTurn_escapes, passes, inTurn_append]

theorem full_passes (marked : Bool) : ∀ r ∈ passes marked, r.pattern ≠ [] := by
  cases marked <;> decide

theorem independent_passes (marked : Bool) : (passes marked).Pairwise Independent := by
  cases marked <;> decide

theorem scanned_perm (marked : Bool) : (scanned marked).Perm (passes marked) := by
  cases marked <;> decide

theorem apart_passes (marked : Bool) : ∀ r ∈ passes marked, ∀ s ∈ passes marked,
    Meets r.pattern.lower s.pattern.lower → r = s := by
  cases marked <;> decide

/-- The escapes leave each marker where it stood, and make none. -/
theorem inTurn_escapes_eq_around_iff {m : Text} (marker : Markup.IsMarker m) {value u v : Text} :
    inTurn escapes value = u ++ m ++ v ↔
      ∃ x y, value = x ++ m ++ y ∧ u = inTurn escapes x ∧ v = inTurn escapes y := by
  have once (t : Text) : inTurn escapes t = atOnce escapes t :=
    inTurn_eq_atOnce (by decide) (by decide) t
  simp only [once]
  rcases marker with opening | closing
  · have unrelated : Unrelated escapes (Markup.opening []) := by decide
    exact atOnce_eq_around_iff unrelated (by decide) opening
  · have unrelated : Unrelated escapes (Markup.closing []) := by decide
    exact atOnce_eq_around_iff unrelated (by decide) closing

/-- **Escaping is one scan.** The passes over a value come to a single scan from left to right,
which at each place makes the first replacement that fits or copies one character. A marker stands
in the value where it stands after the first four passes, between the escaped parts, and nowhere
else. No pass rewrites anything that a pass before it has written. -/
theorem escape_in_one_pass (value : Text) :
    escape value = atOnce (scanned (Markup.present value)) value ∧
    (∀ m, Markup.IsMarker m → ∀ u v, inTurn escapes value = u ++ m ++ v ↔
      ∃ x y, value = x ++ m ++ y ∧ u = inTurn escapes x ∧ v = inTurn escapes y) ∧
    ∃ pieces, Piece.SparesInTurn (passes (Markup.present value)) (value.map .copied) pieces ∧
      Piece.textOf pieces = escape value := by
  generalize marked : Markup.present value = found
  have turns : escape value = inTurn (passes found) value := by rw [escape_eq_inTurn, marked]
  refine ⟨?scan, fun m marker u v => inTurn_escapes_eq_around_iff marker, ?spared⟩
  case scan =>
    calc escape value = inTurn (passes found) value := turns
      _ = atOnce (passes found) value :=
        inTurn_eq_atOnce (full_passes found) (independent_passes found) value
      _ = atOnce (scanned found) value :=
        (atOnce_perm (scanned_perm found) (apart_passes found) value).symm
  case spared =>
    rw [turns]
    exact Piece.exists_sparesInTurn (full_passes found) (independent_passes found) value

/-- Four dots, and markers right beside what is escaped. -/
theorem escape_in_one_pass_of_markers :
    let value := "it's....<HTML>&</hTml>@".toList
    let marker := "<HTML>".toList
    Markup.IsMarker marker ∧
      escape value = atOnce (scanned (Markup.present value)) value ∧
      escape value = "it\\'s&#8230;.<![CDATA[&amp;]]>\\@".toList ∧
      (∃ x y, value = x ++ marker ++ y ∧ "it\\'s&#8230;.".toList = inTurn escapes x ∧
        "&amp;</hTml>\\@".toList = inTurn escapes y) ∧
      ∃ pieces, Piece.SparesInTurn (passes (Markup.present value)) (value.map .copied) pieces ∧
        Piece.textOf pieces = escape value := by
  intro value marker
  obtain ⟨scan, around, spared⟩ := escape_in_one_pass value
  have isMarker : Markup.IsMarker marker := by decide
  have found := (around marker isMarker "it\\'s&#8230;.".toList "&amp;</hTml>\\@".toList).1
    (by decide)
  exact ⟨isMarker, scan, by decide, found, spared⟩

end Android

end Phrasebook

import Mathlib.Data.List.Infix
import Phrasebook.Text.Substitution

namespace Phrasebook.Substitution

theorem pass_eq_atOnce_drop (rules : List Substitution) (n : Nat) (t : Text) :
    pass rules n t = atOnce rules (t.drop n) := by
  induction n generalizing t with
  | zero => rfl
  | succ n ih =>
    cases t with
    | nil => rfl
    | cons c t => exact ih t

theorem applies_of_find?_eq_some {rules : List Substitution} {s : Substitution} {t : Text}
    (found : rules.find? (·.applies t) = some s) : s.applies t = true := by
  simpa using List.find?_some found

@[simp] theorem atOnce_nil (rules : List Substitution) : atOnce rules [] = [] := rfl

theorem atOnce_applied {rules : List Substitution} {c : Char} {t : Text} {s : Substitution}
    (h : rules.find? (·.applies (c :: t)) = some s) :
    atOnce rules (c :: t) = s.replacement ++ atOnce rules (t.drop (s.pattern.length - 1)) := by
  simp only [atOnce, pass, h]
  rw [pass_eq_atOnce_drop]
  rfl

theorem atOnce_copied {rules : List Substitution} {c : Char} {t : Text}
    (h : rules.find? (·.applies (c :: t)) = none) :
    atOnce rules (c :: t) = c :: atOnce rules t := by
  simp only [atOnce, pass, h]

/-- The cases of a single pass, in the order in which it reads the text. -/
@[elab_as_elim]
theorem atOnce_induction (rules : List Substitution) {motive : Text → Prop} (nil : motive [])
    (applied : ∀ c t s, rules.find? (·.applies (c :: t)) = some s →
      motive (t.drop (s.pattern.length - 1)) → motive (c :: t))
    (copied : ∀ c t, rules.find? (·.applies (c :: t)) = none → motive t → motive (c :: t))
    (t : Text) : motive t := by
  induction hn : t.length using Nat.strongRecOn generalizing t with
  | ind n ih =>
    cases t with
    | nil => exact nil
    | cons c t =>
      subst hn
      cases found : rules.find? (·.applies (c :: t)) with
      | none => exact copied c t found (ih _ (by simp) t rfl)
      | some s =>
        have shorter : (t.drop (s.pattern.length - 1)).length < (c :: t).length := by
          rw [List.length_drop, List.length_cons]
          omega
        exact applied c t s found (ih _ shorter _ rfl)

/-! ## Where a pattern can stand in what was written -/

def Meets (t u : Text) : Prop := t <+: u ∨ u <+: t

instance (t u : Text) : Decidable (Meets t u) := inferInstanceAs (Decidable (_ ∨ _))

theorem Meets.map {t u : Text} (h : Meets t u) (f : Char → Char) : Meets (t.map f) (u.map f) :=
  h.imp (·.map f) (·.map f)

theorem meets_of_begins {t u v : Text} (h : t <+: u ++ v) : Meets t u :=
  List.prefix_or_prefix_of_prefix h (List.prefix_append u v)

/-- The first text cannot begin within the second, even if it goes on after its end. -/
def Clear (t u : Text) : Prop := ∀ z ∈ u.tails, z ≠ [] → ¬ Meets t z

instance (t u : Text) : Decidable (Clear t u) :=
  inferInstanceAs (Decidable (∀ z ∈ u.tails, z ≠ [] → ¬ Meets t z))

theorem Clear.not_meets {t u z : Text} (h : Clear t u) (full : z ≠ []) (ends : z <:+ u) :
    ¬ Meets t z := h z ((List.mem_tails ..).2 ends) full

theorem Clear.suffix {t u v : Text} (h : Clear t u) (ends : v <:+ u) : Clear t v :=
  fun _ mem full => h.not_meets full (((List.mem_tails ..).1 mem).trans ends)

/-- Replacements that cannot stand in a pattern do not help it to begin. The text is looked at
through a map, such as the one to small letters. -/
theorem prefix_of_prefix_atOnce {rules : List Substitution} {f : Char → Char} {pattern : Text}
    (outside : ∀ r ∈ rules, Clear (r.replacement.map f) pattern) {t : Text}
    (h : pattern <+: (atOnce rules t).map f) : pattern <+: t.map f := by
  induction pattern generalizing t with
  | nil => exact List.nil_prefix
  | cons p pattern ih =>
    cases t with
    | nil => exact h
    | cons c t =>
      cases found : rules.find? (·.applies (c :: t)) with
      | some r =>
        rw [atOnce_applied found, List.map_append] at h
        have apart := outside r (List.mem_of_find?_eq_some found)
        exact absurd (meets_of_begins h).symm
          (apart.not_meets (List.cons_ne_nil p pattern) (List.suffix_refl _))
      | none =>
        rw [atOnce_copied found, List.map_cons, List.cons_prefix_cons] at h
        refine List.cons_prefix_cons.2 ⟨h.1, ih (fun r mem => ?_) h.2⟩
        exact (outside r mem).suffix (List.suffix_cons p pattern)

theorem infix_of_infix_append {p : Char} {pattern x t : Text} (clear : p ∉ x)
    (h : p :: pattern <:+: x ++ t) : p :: pattern <:+: t := by
  induction x with
  | nil => exact h
  | cons b x ih =>
    rw [List.cons_append, List.infix_cons_iff] at h
    rcases h with begins | inside
    · exact absurd ((List.cons_prefix_cons.1 begins).1 ▸ List.mem_cons_self) clear
    · exact ih (fun mem => clear (List.mem_cons_of_mem _ mem)) inside

/-- Neither end of a pair can be found in what stands around the text. -/
theorem pair_infix_between {a b : Char} {x t y : Text} (first : a ∉ x) (last : b ∉ y)
    (h : [a, b] <:+: x ++ t ++ y) : [a, b] <:+: t := by
  rw [List.append_assoc] at h
  have after := infix_of_infix_append first h
  have reversed : [b, a] <:+: y.reverse ++ t.reverse := by
    simpa using List.reverse_infix.2 after
  have inside : [b, a] <:+: t.reverse :=
    infix_of_infix_append (by simpa using last) reversed
  simpa using List.reverse_infix.2 inside

/-- If besides no replacement holds the first character of the pattern, the pattern does not occur
anew. -/
theorem infix_of_infix_atOnce {rules : List Substitution} {f : Char → Char} {p : Char}
    {pattern : Text}
    (outside : ∀ r ∈ rules, Clear (r.replacement.map f) (p :: pattern))
    (free : ∀ r ∈ rules, p ∉ r.replacement.map f) (t : Text)
    (h : p :: pattern <:+: (atOnce rules t).map f) : p :: pattern <:+: t.map f := by
  induction t using atOnce_induction rules with
  | nil => exact h
  | applied c t r found ih =>
    have clear := free r (List.mem_of_find?_eq_some found)
    rw [atOnce_applied found, List.map_append] at h
    have later := infix_of_infix_append clear h
    have suffix : (t.drop (r.pattern.length - 1)).map f <:+: (c :: t).map f :=
      ((List.drop_suffix _ t).trans (List.suffix_cons c t)).isInfix.map f
    exact (ih later).trans suffix
  | copied c t found ih =>
    have whole := h
    rw [atOnce_copied found, List.map_cons, List.infix_cons_iff] at h
    rw [List.map_cons, List.infix_cons_iff]
    rcases h with begins | inside
    · refine .inl (prefix_of_prefix_atOnce (t := c :: t) outside ?_)
      rwa [atOnce_copied found, List.map_cons]
    · exact .inr (ih inside)

/-- A character that a rule replaces, and that no replacement holds, is gone. -/
theorem not_mem_atOnce {rules : List Substitution} {x : Char} {written : Text}
    (replaced : ⟨[x], written, false⟩ ∈ rules) (free : ∀ r ∈ rules, x ∉ r.replacement) (t : Text) :
    x ∉ atOnce rules t := by
  induction t using atOnce_induction rules with
  | nil => simp
  | applied c t r found ih =>
    rw [atOnce_applied found, List.mem_append, not_or]
    exact ⟨free r (List.mem_of_find?_eq_some found), ih⟩
  | copied c t found ih =>
    rw [atOnce_copied found, List.mem_cons, not_or]
    refine ⟨?_, ih⟩
    rintro rfl
    have := List.find?_eq_none.1 found _ replaced
    simp [applies] at this

/-! ## Passes that can be made at once -/

def fold (s : Substitution) : Char → Char := if s.anyCase then Char.toLower else id

theorem applies_iff {s : Substitution} {t : Text} :
    s.applies t = true ↔ s.pattern.map s.fold <+: t.map s.fold := by
  unfold applies fold
  split
  · rw [beq_iff_eq, Text.lower, Text.lower, List.map_take, List.prefix_iff_eq_take,
      List.length_map]
  · rw [List.map_id, List.map_id, List.isPrefixOf_iff_prefix]

/-- The pattern is not empty, and is looked for as it is written. -/
structure Exact (s : Substitution) : Prop where
  sensitive : s.anyCase = false
  full : s.pattern ≠ []

instance (s : Substitution) : Decidable (Exact s) :=
  decidable_of_iff (s.anyCase = false ∧ s.pattern ≠ [])
    ⟨fun ⟨sensitive, full⟩ => ⟨sensitive, full⟩, fun h => ⟨h.sensitive, h.full⟩⟩

theorem Exact.applies_iff {s : Substitution} (h : Exact s) {t : Text} :
    s.applies t = true ↔ s.pattern <+: t := by
  simp [applies, h.sensitive]

/-- Where a substitution applies, the text is the pattern and what the pass goes on with. -/
theorem Exact.eq_append {s : Substitution} (one : Exact s) {c : Char} {t : Text}
    (h : s.applies (c :: t) = true) : c :: t = s.pattern ++ t.drop (s.pattern.length - 1) := by
  obtain ⟨rest, whole⟩ := one.applies_iff.1 h
  obtain ⟨p, ps, hp⟩ := List.exists_cons_of_ne_nil one.full
  rw [hp, List.cons_append] at whole
  obtain ⟨rfl, rfl⟩ := List.cons.inj whole
  simp [hp]

/-- A pattern is replaced, whatever comes after it, if no two of the patterns can stand in one
place. -/
theorem atOnce_pattern {rules : List Substitution} (exacts : ∀ r ∈ rules, Exact r)
    (apart : ∀ r ∈ rules, ∀ s ∈ rules, Meets s.pattern r.pattern → s = r) {r : Substitution}
    (mem : r ∈ rules) (t : Text) :
    atOnce rules (r.pattern ++ t) = r.replacement ++ atOnce rules t := by
  obtain ⟨c, x, pattern⟩ := List.exists_cons_of_ne_nil (exacts r mem).full
  have applied : r.applies (r.pattern ++ t) = true :=
    (exacts r mem).applies_iff.2 (List.prefix_append _ t)
  have found : rules.find? (·.applies (r.pattern ++ t)) = some r := by
    have some : (rules.find? (·.applies (r.pattern ++ t))).isSome = true :=
      List.find?_isSome.2 ⟨r, mem, applied⟩
    obtain ⟨s, first⟩ := Option.isSome_iff_exists.1 some
    have listed := List.mem_of_find?_eq_some first
    have stands : s.pattern <+: r.pattern ++ t :=
      (exacts s listed).applies_iff.1 (applies_of_find?_eq_some first)
    rw [first, apart r mem s listed (meets_of_begins stands)]
  rw [pattern, List.cons_append] at found ⊢
  rw [atOnce_applied found, pattern, List.length_cons, Nat.add_sub_cancel, List.drop_left]

/-- A text is copied where no rule applies. -/
theorem atOnce_append_of_silent {rules : List Substitution} {x t : Text}
    (silent : ∀ y ≠ [], y <:+ x → ∀ r ∈ rules, ¬ r.applies (y ++ t) = true) :
    atOnce rules (x ++ t) = x ++ atOnce rules t := by
  induction x with
  | nil => rfl
  | cons c x ih =>
    have none : rules.find? (·.applies (c :: (x ++ t))) = none :=
      List.find?_eq_none.2 (silent (c :: x) (List.cons_ne_nil c x) (List.suffix_refl _))
    have rest := ih fun y full ends => silent y full (ends.trans (List.suffix_cons c x))
    rw [List.cons_append, atOnce_copied none, rest]
    rfl

/-- A text is copied where no rule can begin. -/
theorem atOnce_append {rules : List Substitution} (exacts : ∀ r ∈ rules, Exact r) {x : Text}
    (clear : ∀ c ∈ x, ∀ r ∈ rules, r.pattern.head? ≠ some c) (t : Text) :
    atOnce rules (x ++ t) = x ++ atOnce rules t := by
  refine atOnce_append_of_silent fun y full ends r mem applied => ?_
  obtain ⟨c, y, rfl⟩ := List.exists_cons_of_ne_nil full
  obtain ⟨p, ps, hp⟩ := List.exists_cons_of_ne_nil (exacts r mem).full
  rw [(exacts r mem).applies_iff, hp, List.cons_append, List.cons_prefix_cons] at applied
  exact clear c (ends.subset List.mem_cons_self) r mem (by rw [hp, applied.1]; rfl)

/-- Of two substitutions made one after the other, the first is not in the way of the second: the
later pattern does not begin in what the earlier one writes, which in turn does not go on with the
later pattern, and the earlier pattern does not begin inside the later one. -/
structure Independent (earlier later : Substitution) : Prop where
  unbegun : Clear later.pattern.lower earlier.replacement.lower
  unfinished : Clear earlier.replacement.lower later.pattern.lower.tail
  uncut : Clear earlier.pattern.lower later.pattern.lower.tail

instance (earlier later : Substitution) : Decidable (Independent earlier later) :=
  decidable_of_iff (Clear later.pattern.lower earlier.replacement.lower ∧
      Clear earlier.replacement.lower later.pattern.lower.tail ∧
      Clear earlier.pattern.lower later.pattern.lower.tail)
    ⟨fun ⟨unbegun, unfinished, uncut⟩ => ⟨unbegun, unfinished, uncut⟩,
      fun h => ⟨h.unbegun, h.unfinished, h.uncut⟩⟩

/-- What cannot begin within a text in any case cannot begin within it as it is written. -/
theorem Clear.of_lower {t u : Text} (h : Clear t.lower u.lower) (s : Substitution) :
    Clear (t.map s.fold) (u.map s.fold) := by
  unfold fold
  split
  · exact h
  · rw [List.map_id, List.map_id]
    intro z mem full meets
    have ends : z.map Char.toLower <:+ u.lower := ((List.mem_tails ..).1 mem).map Char.toLower
    exact h.not_meets (mt List.map_eq_nil_iff.1 full) ends (meets.map Char.toLower)

theorem lower_append (t u : Text) : Text.lower (t ++ u) = t.lower ++ u.lower := List.map_append

theorem lower_prefix_of_applies {s : Substitution} {t : Text} (h : s.applies t = true) :
    s.pattern.lower <+: t.lower := by
  have begins := applies_iff.1 h
  unfold fold at begins
  split at begins
  · exact begins
  · rw [List.map_id, List.map_id] at begins
    exact begins.map Char.toLower

/-- Where no rule applies, rules that cannot go on with a pattern do not complete it after that. -/
theorem applies_of_applies_atOnce {rules : List Substitution} {s : Substitution}
    (full : s.pattern ≠ [])
    (unfinished : ∀ r ∈ rules, Clear r.replacement.lower s.pattern.lower.tail) {c : Char} {t : Text}
    (h : s.applies (c :: atOnce rules t) = true) : s.applies (c :: t) = true := by
  obtain ⟨p, ps, hp⟩ := List.exists_cons_of_ne_nil full
  rw [applies_iff, hp, List.map_cons, List.map_cons, List.cons_prefix_cons] at h ⊢
  refine ⟨h.1, prefix_of_prefix_atOnce (fun r mem => ?_) h.2⟩
  have apart := unfinished r mem
  rw [hp] at apart
  exact Clear.of_lower apart s

/-- Where a substitution applies, the text is an occurrence of the pattern and what the pass goes on
with. -/
theorem exists_occurrence {s : Substitution} (full : s.pattern ≠ []) {c : Char} {t : Text}
    (h : s.applies (c :: t) = true) :
    ∃ x, t = x ++ t.drop (s.pattern.length - 1) ∧ (c :: x).map s.fold = s.pattern.map s.fold := by
  obtain ⟨p, ps, hp⟩ := List.exists_cons_of_ne_nil full
  refine ⟨t.take ps.length, by rw [hp]; exact (List.take_append_drop ..).symm, ?_⟩
  have begins := List.prefix_iff_eq_take.1 (applies_iff.1 h)
  rw [List.length_map, ← List.map_take] at begins
  rw [begins, hp]
  rfl

theorem applies_occurrence {s : Substitution} {x : Text} (h : x.map s.fold = s.pattern.map s.fold)
    (t : Text) : s.applies (x ++ t) = true := by
  rw [applies_iff, ← h]
  exact (List.prefix_append x t).map _

/-- After an occurrence of the pattern, the pass goes on with what follows it. -/
theorem atOnce_occurrence {rules : List Substitution} {s : Substitution} {c : Char} {x t : Text}
    (h : (c :: x).map s.fold = s.pattern.map s.fold)
    (found : rules.find? (·.applies (c :: x ++ t)) = some s) :
    atOnce rules (c :: x ++ t) = s.replacement ++ atOnce rules t := by
  have length : s.pattern.length - 1 = x.length := by
    have same := congrArg List.length h
    rw [List.length_map, List.length_map, List.length_cons] at same
    omega
  rw [List.cons_append] at found ⊢
  rw [atOnce_applied found, length, List.drop_left]

/-- An occurrence of the pattern is replaced, whatever comes after it. -/
theorem replace_occurrence {s : Substitution} {c : Char} {x : Text}
    (h : (c :: x).map s.fold = s.pattern.map s.fold) (t : Text) :
    s.replace (c :: x ++ t) = s.replacement ++ s.replace t := by
  apply atOnce_occurrence h
  rw [List.find?_singleton, if_pos (applies_occurrence h t)]

theorem lower_eq_of_map_fold {s : Substitution} {t u : Text} (h : t.map s.fold = u.map s.fold) :
    t.lower = u.lower := by
  unfold fold at h
  split at h
  · exact h
  · rw [List.map_id, List.map_id] at h
    rw [h]

/-- A rule does not apply within a text that its pattern cannot begin in. -/
theorem not_applies_of_clear {s : Substitution} {x : Text} (clear : Clear s.pattern.lower x.lower)
    (t : Text) : ∀ y ≠ [], y <:+ x → ¬ s.applies (y ++ t) = true := by
  intro y full ends applied
  have begins := lower_prefix_of_applies applied
  rw [lower_append] at begins
  exact clear.not_meets (mt List.map_eq_nil_iff.1 full) (ends.map Char.toLower)
    (meets_of_begins begins)

theorem atOnce_append_of_clear {rules : List Substitution} {x : Text}
    (clear : ∀ r ∈ rules, Clear r.pattern.lower x.lower) (t : Text) :
    atOnce rules (x ++ t) = x ++ atOnce rules t :=
  atOnce_append_of_silent fun y full ends r mem =>
    not_applies_of_clear (clear r mem) t y full ends

/-! ## What a pass leaves -/

theorem suffix_append_cases {x u z : Text} (h : z <:+ x ++ u) :
    z <:+ u ∨ ∃ y, y ≠ [] ∧ y <:+ x ∧ z = y ++ u := by
  obtain ⟨front, whole⟩ := h
  rcases List.append_eq_append_iff.1 whole with ⟨y, rfl, rfl⟩ | ⟨y, rfl, rfl⟩
  · by_cases none : y = []
    · subst none
      exact .inl (List.suffix_refl u)
    · exact .inr ⟨y, none, List.suffix_append front y, rfl⟩
  · exact .inl (List.suffix_append y z)

/-- What holds wherever a pass has written something, and wherever it has copied a character, holds
everywhere in the text that it leaves. -/
theorem forall_suffix_atOnce {rules : List Substitution} {P : Text → Prop}
    (written : ∀ r ∈ rules, ∀ y ≠ [], y <:+ r.replacement → ∀ t, P (y ++ atOnce rules t))
    (copied : ∀ c t, rules.find? (·.applies (c :: t)) = none → P (c :: atOnce rules t))
    (t : Text) : ∀ z ≠ [], z <:+ atOnce rules t → P z := by
  induction t using atOnce_induction rules with
  | nil =>
    intro z full ends
    exact absurd (List.suffix_nil.1 ends) full
  | applied c t r found ih =>
    intro z full ends
    rw [atOnce_applied found] at ends
    rcases suffix_append_cases ends with later | ⟨y, some, within, rfl⟩
    · exact ih z full later
    · exact written r (List.mem_of_find?_eq_some found) y some within _
  | copied c t found ih =>
    intro z full ends
    rw [atOnce_copied found] at ends
    rcases List.suffix_cons_iff.1 ends with rfl | later
    · exact copied c t found
    · exact ih z full later

/-- A rule of the pass applies nowhere in the text that is left, if its pattern neither begins in
what is written nor goes on with it. -/
theorem not_applies_atOnce {rules : List Substitution} {s : Substitution} (mem : s ∈ rules)
    (full : s.pattern ≠ []) (unbegun : ∀ r ∈ rules, Clear s.pattern.lower r.replacement.lower)
    (unfinished : ∀ r ∈ rules, Clear r.replacement.lower s.pattern.lower.tail) (t : Text) :
    ∀ z ≠ [], z <:+ atOnce rules t → ¬ s.applies z = true := by
  apply forall_suffix_atOnce
  · intro r hr y some ends t
    exact not_applies_of_clear (unbegun r hr) _ y some ends
  · intro c t found applied
    exact List.find?_eq_none.1 found s mem (applies_of_applies_atOnce full unfinished applied)

theorem not_infix_atOnce {rules : List Substitution} {s : Substitution} (mem : s ∈ rules)
    (one : Exact s) (unbegun : ∀ r ∈ rules, Clear s.pattern.lower r.replacement.lower)
    (unfinished : ∀ r ∈ rules, Clear r.replacement.lower s.pattern.lower.tail) (t : Text) :
    ¬ s.pattern <:+: atOnce rules t := by
  intro inside
  obtain ⟨z, begins, ends⟩ := List.infix_iff_prefix_suffix.1 inside
  have some : z ≠ [] := by
    rintro rfl
    exact one.full (List.prefix_nil.1 begins)
  apply not_applies_atOnce mem one.full unbegun unfinished t z some ends
  exact one.applies_iff.2 begins

/-- A text that rules neither take from nor add to begins what they leave where it did before. -/
theorem prefix_atOnce_iff {rules : List Substitution} {x : Text}
    (outside : ∀ r ∈ rules, Clear r.replacement x)
    (clear : ∀ r ∈ rules, Clear r.pattern.lower x.lower) {t : Text} :
    x <+: atOnce rules t ↔ x <+: t := by
  constructor
  · intro begins
    have mapped : x <+: (atOnce rules t).map id := by rwa [List.map_id]
    have before := prefix_of_prefix_atOnce
      (fun r mem => by rw [List.map_id]; exact outside r mem) mapped
    rwa [List.map_id] at before
  · rintro ⟨rest, rfl⟩
    rw [atOnce_append_of_clear clear]
    exact List.prefix_append _ _

/-- What stands somewhere in a text, in any case, still does if no rule takes from it. -/
theorem infix_lower_atOnce {rules : List Substitution} {p : Char} {pattern : Text}
    (full : ∀ r ∈ rules, r.pattern ≠ []) (apart : ∀ r ∈ rules, p ∉ r.pattern.lower)
    (clear : ∀ r ∈ rules, Clear r.pattern.lower (p :: pattern)) (t : Text)
    (h : p :: pattern <:+: t.lower) : p :: pattern <:+: Text.lower (atOnce rules t) := by
  induction t using atOnce_induction rules with
  | nil => exact h
  | applied c t r found ih =>
    have mem := List.mem_of_find?_eq_some found
    have applied : r.applies (c :: t) = true := applies_of_find?_eq_some found
    obtain ⟨x, split, occurs⟩ := exists_occurrence (full r mem) applied
    have outside : p ∉ Text.lower (c :: x) := lower_eq_of_map_fold occurs ▸ apart r mem
    rw [split, ← List.cons_append, lower_append] at h
    rw [atOnce_applied found, lower_append]
    exact (ih (infix_of_infix_append outside h)).trans (List.suffix_append _ _).isInfix
  | copied c t found ih =>
    rw [Text.lower, List.map_cons, List.infix_cons_iff] at h
    rcases h with begins | inside
    · rw [← List.map_cons] at begins
      obtain ⟨x, ⟨rest, whole⟩, same⟩ : ∃ x, x <+: c :: t ∧ Text.lower x = p :: pattern := by
        refine ⟨(c :: t).take (p :: pattern).length, List.take_prefix _ _, ?_⟩
        rw [Text.lower, List.map_take]
        exact (List.prefix_iff_eq_take.1 begins).symm
      rw [← whole, atOnce_append_of_clear fun r mem => same ▸ clear r mem, lower_append]
      exact ⟨[], _, by rw [← same]; rfl⟩
    · rw [atOnce_copied found]
      exact (ih inside).trans (List.suffix_cons _ _).isInfix

/-- One more pass, when it is independent of all before it. -/
theorem replace_atOnce {rules : List Substitution} {s : Substitution} (full : s.pattern ≠ [])
    (independent : ∀ r ∈ rules, Independent r s) (t : Text) :
    s.replace (atOnce rules t) = atOnce (rules ++ [s]) t := by
  induction t using atOnce_induction (rules ++ [s]) with
  | nil => rfl
  | applied c t r found ih =>
    rw [atOnce_applied found, ← ih]
    rw [List.find?_append] at found
    cases first : rules.find? (·.applies (c :: t)) with
    | some r' =>
      -- An earlier rule has written here, and the pattern cannot begin in what it wrote.
      obtain rfl : r' = r := by simpa [first] using found
      have apart := independent r' (List.mem_of_find?_eq_some first)
      rw [atOnce_applied first, replace, atOnce_append_of_silent, replace]
      intro y some ends r hr
      obtain rfl := List.mem_singleton.1 hr
      exact not_applies_of_clear apart.unbegun _ y some ends
    | none =>
      -- The pattern stands here, and no earlier rule can begin inside it.
      have last : s.applies (c :: t) = true ∧ s = r := by
        simpa [first, List.find?_cons_eq_some] using found
      obtain ⟨applied, rfl⟩ := last
      obtain ⟨x, split, occurs⟩ := exists_occurrence full applied
      have inside : Text.lower x = (Text.lower s.pattern).tail :=
        congrArg List.tail (lower_eq_of_map_fold occurs)
      have copied : atOnce rules (c :: t) =
          c :: x ++ atOnce rules (t.drop (s.pattern.length - 1)) := by
        conv_lhs => rw [split]
        refine atOnce_append_of_silent (x := c :: x) fun y some ends r hr => ?_
        rcases List.suffix_cons_iff.1 ends with rfl | within
        · rw [List.cons_append, ← split]
          exact List.find?_eq_none.1 first r hr
        · refine not_applies_of_clear ?_ _ y some within
          rw [inside]
          exact (independent r hr).uncut
      rw [copied, replace_occurrence occurs]
  | copied c t found ih =>
    rw [List.find?_append] at found
    obtain ⟨first, last⟩ := Option.or_eq_none_iff.1 found
    have absent : ¬ s.applies (c :: t) = true := List.find?_eq_none.1 last s List.mem_cons_self
    have silent : ¬ s.applies (c :: atOnce rules t) = true :=
      mt (applies_of_applies_atOnce full fun r mem => (independent r mem).unfinished) absent
    have both : (rules ++ [s]).find? (·.applies (c :: t)) = none := by
      rw [List.find?_append, first, last]
      rfl
    have alone : [s].find? (·.applies (c :: atOnce rules t)) = none := by
      rw [List.find?_singleton, if_neg silent]
    rw [atOnce_copied first, atOnce_copied both, ← ih, replace, atOnce_copied alone, replace]

theorem inTurn_atOnce {rules later : List Substitution} (full : ∀ s ∈ later, s.pattern ≠ [])
    (independent : (rules ++ later).Pairwise Independent) (t : Text) :
    inTurn later (atOnce rules t) = atOnce (rules ++ later) t := by
  induction later generalizing rules with
  | nil => simp
  | cons s later ih =>
    obtain ⟨one, rest⟩ := List.forall_mem_cons.1 full
    rw [List.append_cons] at independent ⊢
    have before : ∀ r ∈ rules, Independent r s := fun r mem =>
      (List.pairwise_append.1 (List.pairwise_append.1 independent).1).2.2 r mem s
        List.mem_cons_self
    rw [inTurn_cons, replace_atOnce one before, ih rest independent]

/-- Independent passes, made one after the other, are one pass. -/
theorem inTurn_eq_atOnce {rules : List Substitution} (full : ∀ s ∈ rules, s.pattern ≠ [])
    (independent : rules.Pairwise Independent) (t : Text) :
    inTurn rules t = atOnce rules t := by
  have none : atOnce [] t = t := by
    induction t with
    | nil => rfl
    | cons c t ih => rw [atOnce_copied rfl, ih]
  have turns := @inTurn_atOnce [] rules full independent t
  rwa [none, List.nil_append] at turns

end Phrasebook.Substitution

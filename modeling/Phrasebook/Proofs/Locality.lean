import Phrasebook.Proofs.Substitution

/-!
# Parts that are rewritten on their own

A pass over a text is the pass over each of its two parts, unless a pattern stands across the cut.
If some characters stand in patterns only at the beginning, and some others only at the end, then a
text that begins and ends with these is never cut through: what a chain of passes makes of it is the
same wherever it stands. So such a text is found in a result exactly if some part of the text before
is turned into it: `Local`, `local_inTurn`.
-/

namespace Phrasebook.Substitution

/-! ## A pass over two texts -/

theorem applies_append_of_applies {s : Substitution} {z : Text} (h : s.applies z = true)
    (y : Text) : s.applies (z ++ y) = true := by
  rw [applies_iff, List.map_append]
  exact (applies_iff.1 h).trans (List.prefix_append _ _)

/-- Where a rule applies before a cut, it applies to what is before the cut, or its pattern stands
across. -/
theorem applies_append_cases {s : Substitution} {z y : Text} (h : s.applies (z ++ y) = true) :
    s.applies z = true ∨ ∃ w ≠ [], s.pattern.lower = z.lower ++ w ∧ w <+: y.lower := by
  by_cases short : s.pattern.length ≤ z.length
  · left
    rw [applies_iff, List.map_append] at h
    rw [applies_iff]
    exact List.prefix_of_prefix_length_le h (List.prefix_append _ _) (by simpa using short)
  · right
    have begins := lower_prefix_of_applies h
    rw [lower_append] at begins
    obtain ⟨w, whole⟩ : z.lower <+: s.pattern.lower := by
      apply List.prefix_of_prefix_length_le (List.prefix_append _ _) begins
      simp only [Text.lower, List.length_map]
      omega
    refine ⟨w, ?_, whole.symm, ?_⟩
    · rintro rfl
      have same := congrArg List.length whole
      simp [Text.lower] at same
      omega
    · rw [← whole] at begins
      exact (List.prefix_append_right_inj _).1 begins

theorem find?_applies_congr {rules : List Substitution} {t u : Text}
    (same : ∀ r ∈ rules, r.applies t = true ↔ r.applies u = true) :
    rules.find? (·.applies t) = rules.find? (·.applies u) := by
  induction rules with
  | nil => rfl
  | cons r rules ih =>
    obtain ⟨one, rest⟩ := List.forall_mem_cons.1 same
    rw [List.find?_cons, List.find?_cons, Bool.eq_iff_iff.2 one, ih rest]

/-- No rule applies across the cut between two texts. -/
def Uncut (rules : List Substitution) (x y : Text) : Prop :=
  ∀ r ∈ rules, ∀ z ≠ [], z <:+ x → r.applies (z ++ y) = true → r.applies z = true

theorem Uncut.suffix {rules : List Substitution} {x y z : Text} (h : Uncut rules x y)
    (ends : z <:+ x) : Uncut rules z y :=
  fun r mem w some within => h r mem w some (within.trans ends)

theorem Uncut.find?_append {rules : List Substitution} {c : Char} {x y : Text}
    (h : Uncut rules (c :: x) y) :
    rules.find? (·.applies (c :: (x ++ y))) = rules.find? (·.applies (c :: x)) := by
  apply find?_applies_congr
  intro r mem
  constructor
  · exact h r mem (c :: x) (List.cons_ne_nil c x) (List.suffix_refl _)
  · intro applied
    exact applies_append_of_applies applied y

theorem length_le_of_applies {s : Substitution} {c : Char} {x : Text}
    (h : s.applies (c :: x) = true) : s.pattern.length - 1 ≤ x.length := by
  have begins := (applies_iff.1 h).length_le
  simp only [List.length_map, List.length_cons] at begins
  omega

/-- A pass over two texts that no pattern stands across. -/
theorem atOnce_append_of_uncut {rules : List Substitution} {x y : Text}
    (uncut : Uncut rules x y) :
    atOnce rules (x ++ y) = atOnce rules x ++ atOnce rules y := by
  induction x using atOnce_induction rules with
  | nil => rfl
  | applied c x r found ih =>
    have applied : r.applies (c :: x) = true := applies_of_find?_eq_some found
    have within := length_le_of_applies applied
    have both := uncut.find?_append.trans found
    have rest := ih (uncut.suffix ((List.drop_suffix _ x).trans (List.suffix_cons c x)))
    rw [List.cons_append, atOnce_applied both, atOnce_applied found,
      List.drop_append_of_le_length within, rest, List.append_assoc]
  | copied c x found ih =>
    have both := uncut.find?_append.trans found
    have rest := ih (uncut.suffix (List.suffix_cons c x))
    rw [List.cons_append, atOnce_copied both, atOnce_copied found, rest]
    rfl

/-- The rule that applies to a text applies to a beginning of it that still holds the pattern. -/
theorem find?_applies_of_beginning {rules : List Substitution} {t u : Text} (begins : u <+: t)
    (within : ∀ s ∈ rules.find? (·.applies t), s.applies u = true) :
    rules.find? (·.applies u) = rules.find? (·.applies t) := by
  obtain ⟨y, rfl⟩ := begins
  induction rules with
  | nil => rfl
  | cons r rules ih =>
    rw [List.find?_cons] at within ⊢
    rw [List.find?_cons]
    cases whole : r.applies (u ++ y) with
    | true =>
      rw [whole] at within
      rw [within r rfl]
    | false =>
      have short : r.applies u = false := by
        by_contra applies
        rw [applies_append_of_applies (by simpa using applies)] at whole
        cases whole
      rw [whole] at within
      rw [short, ih within]

/-! ## Texts with a mark at each end -/

def BeginsIn (marks : List Char) (t : Text) : Prop := ∃ c ∈ marks, t.lower.head? = some c

def EndsIn (marks : List Char) (t : Text) : Prop := ∃ c ∈ marks, t.lower.getLast? = some c

def Outside (marks : List Char) (t : Text) : Prop := ∀ c ∈ marks, c ∉ t

structure Framed (first last : List Char) (t : Text) : Prop where
  begins : BeginsIn first t
  ends : EndsIn last t

/-- In the pattern the marks stand at its ends only. They are at the same end of what is written,
and only if the pattern has one there as well. -/
structure Respects (first last : List Char) (s : Substitution) : Prop where
  full : s.pattern ≠ []
  begun : Outside first s.pattern.lower.tail
  ended : Outside last s.pattern.lower.dropLast
  rebegun : Outside first s.replacement.lower.tail
  reended : Outside last s.replacement.lower.dropLast
  opens : BeginsIn first s.replacement → BeginsIn first s.pattern
  closes : EndsIn last s.replacement → EndsIn last s.pattern

instance (marks : List Char) (t : Text) : Decidable (BeginsIn marks t) := List.decidableBEx _ _

instance (marks : List Char) (t : Text) : Decidable (EndsIn marks t) := List.decidableBEx _ _

instance (marks : List Char) (t : Text) : Decidable (Outside marks t) := List.decidableBAll _ _

instance (first last : List Char) (s : Substitution) : Decidable (Respects first last s) :=
  decidable_of_iff (s.pattern ≠ [] ∧ Outside first s.pattern.lower.tail ∧
      Outside last s.pattern.lower.dropLast ∧ Outside first s.replacement.lower.tail ∧
      Outside last s.replacement.lower.dropLast ∧
      (BeginsIn first s.replacement → BeginsIn first s.pattern) ∧
      (EndsIn last s.replacement → EndsIn last s.pattern))
    ⟨fun ⟨full, begun, ended, rebegun, reended, opens, closes⟩ =>
      ⟨full, begun, ended, rebegun, reended, opens, closes⟩,
      fun h => ⟨h.full, h.begun, h.ended, h.rebegun, h.reended, h.opens, h.closes⟩⟩

section

variable {first last marks : List Char}

@[simp] theorem beginsIn_cons {c : Char} {t : Text} :
    BeginsIn marks (c :: t) ↔ c.toLower ∈ marks := by
  simp [BeginsIn, Text.lower]

theorem BeginsIn.exists_cons {t : Text} (h : BeginsIn marks t) :
    ∃ c u, t = c :: u ∧ c.toLower ∈ marks := by
  cases t with
  | nil =>
    obtain ⟨c, -, none⟩ := h
    cases none
  | cons c u => exact ⟨c, u, rfl, beginsIn_cons.1 h⟩

theorem BeginsIn.append {t : Text} (h : BeginsIn marks t) (u : Text) : BeginsIn marks (t ++ u) := by
  obtain ⟨c, t, rfl, mark⟩ := h.exists_cons
  exact beginsIn_cons.2 mark

theorem BeginsIn.of_append {t u : Text} (h : BeginsIn marks (t ++ u)) (some : t ≠ []) :
    BeginsIn marks t := by
  obtain ⟨c, t, rfl⟩ := List.exists_cons_of_ne_nil some
  exact beginsIn_cons.2 (beginsIn_cons.1 h)

theorem BeginsIn.congr {t u : Text} (h : BeginsIn marks t) (same : t.lower = u.lower) :
    BeginsIn marks u := by
  obtain ⟨c, mark, head⟩ := h
  exact ⟨c, mark, same ▸ head⟩

theorem EndsIn.congr {t u : Text} (h : EndsIn marks t) (same : t.lower = u.lower) :
    EndsIn marks u := by
  obtain ⟨c, mark, final⟩ := h
  exact ⟨c, mark, same ▸ final⟩

theorem EndsIn.ne_nil {t : Text} (h : EndsIn marks t) : t ≠ [] := by
  rintro rfl
  obtain ⟨c, -, none⟩ := h
  cases none

theorem EndsIn.mem {t : Text} (h : EndsIn marks t) : ∃ c ∈ marks, c ∈ t.lower := by
  obtain ⟨c, mark, final⟩ := h
  exact ⟨c, mark, List.mem_of_getLast? final⟩

theorem endsIn_append {t u : Text} (some : u ≠ []) : EndsIn marks (t ++ u) ↔ EndsIn marks u := by
  have full : u.lower ≠ [] := mt List.map_eq_nil_iff.1 some
  rw [EndsIn, EndsIn, lower_append, List.getLast?_append_of_ne_nil _ full]

end

section

variable {first last : List Char} {rules : List Substitution}

/-- No pattern stands across the place before a first mark. -/
theorem uncut_of_beginsIn (respects : ∀ r ∈ rules, Respects first last r) {y : Text}
    (h : BeginsIn first y) (x : Text) : Uncut rules x y := by
  intro r mem z full _ applied
  rcases applies_append_cases applied with done | ⟨w, some, whole, within⟩
  · exact done
  · exfalso
    obtain ⟨c, u, rfl, mark⟩ := h.exists_cons
    obtain ⟨b, z, rfl⟩ := List.exists_cons_of_ne_nil full
    obtain ⟨d, w, rfl⟩ := List.exists_cons_of_ne_nil some
    obtain ⟨rfl, -⟩ := List.cons_prefix_cons.1 within
    apply (respects r mem).begun _ mark
    rw [whole]
    exact List.mem_append_right _ List.mem_cons_self

/-- No pattern stands across the place after a last mark. -/
theorem uncut_of_endsIn (respects : ∀ r ∈ rules, Respects first last r) {x : Text}
    (h : EndsIn last x) (y : Text) : Uncut rules x y := by
  intro r mem z full ends applied
  rcases applies_append_cases applied with done | ⟨w, some, whole, -⟩
  · exact done
  · exfalso
    obtain ⟨front, rfl⟩ := ends
    obtain ⟨c, mark, inside⟩ := ((endsIn_append full).1 h).mem
    apply (respects r mem).ended c mark
    rw [whole, List.dropLast_append_of_ne_nil some]
    exact List.mem_append_left _ inside

/-- What begins with a first mark in the result was made of what began there before. -/
theorem exists_part_from (respects : ∀ r ∈ rules, Respects first last r) {t left right : Text}
    (begins : BeginsIn first right) (h : atOnce rules t = left ++ right) :
    ∃ a b, t = a ++ b ∧ BeginsIn first b ∧ atOnce rules b = right := by
  induction t using atOnce_induction rules generalizing left with
  | nil =>
    obtain ⟨c, u, rfl, -⟩ := begins.exists_cons
    exact absurd h (by simp)
  | applied c t r found ih =>
    have kept := respects r (List.mem_of_find?_eq_some found)
    have applied : r.applies (c :: t) = true := applies_of_find?_eq_some found
    obtain ⟨x, split, occurs⟩ := exists_occurrence kept.full applied
    have later (rest : ∃ left', atOnce rules (t.drop (r.pattern.length - 1)) = left' ++ right) :
        ∃ a b, c :: t = a ++ b ∧ BeginsIn first b ∧ atOnce rules b = right := by
      obtain ⟨left', rest⟩ := rest
      obtain ⟨a, b, parts, mark, made⟩ := ih rest
      refine ⟨c :: x ++ a, b, ?_, mark, made⟩
      rw [split, parts]
      simp
    have whole := h
    rw [atOnce_applied found] at h
    rcases List.append_eq_append_iff.1 h with ⟨y, -, rest⟩ | ⟨y, written, rest⟩
    · exact later ⟨y, rest⟩
    · cases y with
      | nil => exact later ⟨[], rest.symm⟩
      | cons d y =>
        have mark : d.toLower ∈ first := by rwa [rest, List.cons_append, beginsIn_cons] at begins
        cases left with
        | nil =>
          have opened : BeginsIn first r.pattern :=
            kept.opens (by rwa [written, List.nil_append, beginsIn_cons])
          have occurrence : BeginsIn first (c :: x) :=
            opened.congr (lower_eq_of_map_fold occurs).symm
          exact ⟨[], c :: t, rfl, beginsIn_cons.2 (beginsIn_cons.1 occurrence), whole⟩
        | cons e left =>
          exfalso
          apply kept.rebegun _ mark
          rw [written]
          simp [Text.lower]
  | copied c t found ih =>
    have whole := h
    rw [atOnce_copied found] at h
    cases left with
    | nil =>
      rw [List.nil_append] at h whole
      rw [← h, beginsIn_cons] at begins
      exact ⟨[], c :: t, rfl, beginsIn_cons.2 begins, whole⟩
    | cons d left =>
      obtain ⟨-, later⟩ := List.cons.inj h
      obtain ⟨a, b, rfl, mark, made⟩ := ih later
      exact ⟨c :: a, b, rfl, mark, made⟩

/-- What ends with a last mark in the result was made of what ended there before. -/
theorem exists_part_to (respects : ∀ r ∈ rules, Respects first last r) {t left right : Text}
    (ends : EndsIn last left) (h : atOnce rules t = left ++ right) :
    ∃ a b, t = a ++ b ∧ EndsIn last a ∧ atOnce rules a = left := by
  induction t using atOnce_induction rules generalizing left with
  | nil => exact absurd (List.append_eq_nil_iff.1 h.symm).1 ends.ne_nil
  | applied c t r found ih =>
    have kept := respects r (List.mem_of_find?_eq_some found)
    have applied : r.applies (c :: t) = true := applies_of_find?_eq_some found
    obtain ⟨x, split, occurs⟩ := exists_occurrence kept.full applied
    have shorter {a b : Text} (parts : t.drop (r.pattern.length - 1) = a ++ b) :
        atOnce rules (c :: x ++ a) = r.replacement ++ atOnce rules a := by
      have begins : c :: x ++ a <+: c :: t := ⟨b, by rw [split, parts]; simp⟩
      apply atOnce_occurrence occurs
      rw [find?_applies_of_beginning begins, found]
      intro s first
      obtain rfl := Option.some.inj (found.symm.trans first)
      exact applies_occurrence occurs a
    rw [atOnce_applied found] at h
    -- The last mark ends what was written here, or else it was made of the rest.
    by_cases exact : left = r.replacement
    · subst exact
      have occurrence : EndsIn last (c :: x) :=
        (kept.closes ends).congr (lower_eq_of_map_fold occurs).symm
      refine ⟨c :: x, t.drop (r.pattern.length - 1), congrArg (c :: ·) split, occurrence, ?_⟩
      simpa using shorter (List.nil_append _).symm
    · rcases List.append_eq_append_iff.1 h with ⟨y, rfl, later⟩ | ⟨y, written, -⟩
      · have some : y ≠ [] := by
          rintro rfl
          exact exact (List.append_nil _)
        obtain ⟨a, b, parts, mark, made⟩ := ih ((endsIn_append some).1 ends) later
        refine ⟨c :: x ++ a, b, ?_, (endsIn_append mark.ne_nil).2 mark, ?_⟩
        · rw [split, parts]
          simp
        · rw [shorter parts, made]
      · exfalso
        have some : y ≠ [] := by
          rintro rfl
          exact exact (by rw [written, List.append_nil])
        obtain ⟨d, mark, inside⟩ := ends.mem
        apply kept.reended d mark
        have full : Text.lower y ≠ [] := mt List.map_eq_nil_iff.1 some
        rw [written, lower_append, List.dropLast_append_of_ne_nil full]
        exact List.mem_append_left _ inside
  | copied c t found ih =>
    have shorter {a b : Text} (parts : t = a ++ b) :
        atOnce rules (c :: a) = c :: atOnce rules a := by
      have begins : c :: a <+: c :: t := ⟨b, congrArg (c :: ·) parts.symm⟩
      apply atOnce_copied
      rw [find?_applies_of_beginning begins, found]
      intro s first
      rw [found] at first
      cases first
    rw [atOnce_copied found] at h
    obtain ⟨d, left, rfl⟩ := List.exists_cons_of_ne_nil ends.ne_nil
    obtain ⟨rfl, later⟩ := List.cons.inj h
    by_cases none : left = []
    · subst none
      exact ⟨[c], t, rfl, ends, shorter rfl⟩
    · rw [← List.singleton_append, endsIn_append none] at ends
      obtain ⟨a, b, parts, mark, made⟩ := ih ends later
      refine ⟨c :: a, b, congrArg (c :: ·) parts, ?_, ?_⟩
      · rwa [← List.singleton_append, endsIn_append mark.ne_nil]
      · rw [shorter parts, made]

/-! ## Parts of a text -/

/-- A framed text that is found in a result was made of a framed part, of which the same is made
wherever the part stands. -/
def Local (first last : List Char) (f : Text → Text) : Prop :=
  ∀ t made, Framed first last made → made <:+: f t →
    ∃ part, Framed first last part ∧ part <:+: t ∧ f part = made ∧
      ∀ whole, part <:+: whole → made <:+: f whole

theorem Local.comp {f g : Text → Text} (one : Local first last f) (two : Local first last g) :
    Local first last (g ∘ f) := by
  intro t made framed found
  obtain ⟨middle, framed₂, found₂, made₂, kept₂⟩ := two (f t) made framed found
  obtain ⟨part, framed₁, found₁, made₁, kept₁⟩ := one t middle framed₂ found₂
  refine ⟨part, framed₁, found₁, ?_, ?_⟩
  · rw [Function.comp_apply, made₁, made₂]
  · intro whole inside
    exact kept₂ (f whole) (kept₁ whole inside)

/-- A framed text stands in the result if and only if some part of the text becomes it. -/
theorem Local.infix_iff {f : Text → Text} (h : Local first last f) {made : Text}
    (framed : Framed first last made) (t : Text) :
    made <:+: f t ↔ ∃ part, part <:+: t ∧ f part = made := by
  constructor
  · intro found
    obtain ⟨part, -, inside, becomes, -⟩ := h t made framed found
    exact ⟨part, inside, becomes⟩
  · rintro ⟨part, inside, becomes⟩
    have found : made <:+: f part := becomes ▸ List.infix_refl _
    obtain ⟨core, -, within, -, kept⟩ := h part made framed found
    exact kept t (within.trans inside)

theorem local_atOnce (respects : ∀ r ∈ rules, Respects first last r) :
    Local first last (atOnce rules) := by
  rintro t made ⟨begins, ends⟩ ⟨left, right, whole⟩
  have starts : BeginsIn first (made ++ right) := begins.append right
  -- Cut off what stands before the first mark, and then what stands after the last one.
  rw [List.append_assoc] at whole
  obtain ⟨a, rest, rfl, mark, made₁⟩ := exists_part_from respects starts whole.symm
  obtain ⟨part, b, rfl, mark', made₂⟩ := exists_part_to respects ends made₁
  have framed : BeginsIn first part := mark.of_append mark'.ne_nil
  refine ⟨part, ⟨framed, mark'⟩, ⟨a, b, by simp⟩, made₂, ?_⟩
  rintro _ ⟨x, y, rfl⟩
  have before : Uncut rules x (part ++ y) := uncut_of_beginsIn respects (framed.append y) x
  have after : Uncut rules part y := uncut_of_endsIn respects mark' y
  rw [List.append_assoc, atOnce_append_of_uncut before, atOnce_append_of_uncut after, made₂]
  exact ⟨atOnce rules x, atOnce rules y, by simp⟩

/-- The same of a chain of passes. -/
theorem local_inTurn (respects : ∀ r ∈ rules, Respects first last r) :
    Local first last (inTurn rules) := by
  induction rules with
  | nil =>
    intro t made framed found
    exact ⟨made, framed, found, rfl, fun _ inside => inside⟩
  | cons r rules ih =>
    obtain ⟨one, rest⟩ := List.forall_mem_cons.1 respects
    have pass : Local first last r.replace :=
      local_atOnce (List.forall_mem_singleton.2 one)
    exact pass.comp (ih rest)

end

end Phrasebook.Substitution

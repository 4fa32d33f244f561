import Phrasebook.Format
import Phrasebook.Proofs.AndroidUnescape
import Phrasebook.Proofs.StringsFile

/-!
# Quotes and their backslashes

A resource compiler takes a quote as escaped if the run of backslashes right before it is odd. Two
passes write backslashes, one before double quotes and one before apostrophes and at signs, and the
sheet has backslashes of its own. Each pass turns even runs into odd ones where it writes and keeps
all other runs, so the quotes of an element are escaped exactly if in the value, read without its
line breaks, the run before each of them is even.
-/

namespace Phrasebook.Android

open StringsFile (slashes)
open Substitution

/-- The characters that a resource compiler wants escaped. -/
def quotes : List Char := ['"', '\'', '@']

/-- The run of backslashes right before each of some characters has a length of this parity. -/
def RunsBefore (parity : Nat) (chars : List Char) (t : Text) : Prop :=
  ∀ before c after, t = before ++ c :: after → c ∈ chars → slashes before.reverse % 2 = parity

/-- The same of two lists of characters at once, told while reading, where `odd` says whether the
run that the text goes on with is odd. -/
def Runs (evens odds : List Char) : (odd : Bool) → Text → Prop
  | _, [] => True
  | odd, c :: t =>
    (c ∈ evens → odd = false) ∧ (c ∈ odds → odd = true) ∧ Runs evens odds (c == '\\' && !odd) t

instance decidableRuns (evens odds : List Char) :
    (odd : Bool) → (t : Text) → Decidable (Runs evens odds odd t)
  | _, [] => inferInstanceAs (Decidable True)
  | odd, c :: t =>
    let _ := decidableRuns evens odds (c == '\\' && !odd) t
    inferInstanceAs (Decidable (_ ∧ _ ∧ _))

theorem slashes_cons (c : Char) (read : Text) :
    slashes (c :: read) = if c = '\\' then slashes read + 1 else 0 := by
  by_cases back : c = '\\' <;> simp [slashes, back]

theorem runs_iff_of_read {evens odds : List Char} {odd : Bool} {t read : Text}
    (parity : slashes read % 2 = odd.toNat) :
    Runs evens odds odd t ↔ ∀ before c after, t = before ++ c :: after →
      (c ∈ evens → slashes (before.reverse ++ read) % 2 = 0) ∧
      (c ∈ odds → slashes (before.reverse ++ read) % 2 = 1) := by
  induction t generalizing odd read with
  | nil =>
    constructor
    · intro _ before c after split
      exact absurd split (by simp)
    · intro _
      trivial
  | cons c t ih =>
    have next : slashes (c :: read) % 2 = (c == '\\' && !odd).toNat := by
      rw [slashes_cons]
      by_cases back : c = '\\'
      · subst back
        cases odd <;> simp at parity ⊢ <;> omega
      · rw [if_neg back, beq_false_of_ne back]
        rfl
    rw [Runs, ih next]
    constructor
    · rintro ⟨even, uneven, rest⟩ before d after split
      cases before with
      | nil =>
        obtain ⟨rfl, rfl⟩ := List.cons.inj split
        rw [List.reverse_nil, List.nil_append, parity]
        exact ⟨fun mem => by rw [even mem]; rfl, fun mem => by rw [uneven mem]; rfl⟩
      | cons b before =>
        obtain ⟨rfl, later⟩ := List.cons.inj split
        simpa using rest before d after later
    · intro all
      have here := all [] c t rfl
      rw [List.reverse_nil, List.nil_append, parity] at here
      refine ⟨fun mem => ?_, fun mem => ?_, fun before d after split => ?_⟩
      · have none := here.1 mem
        cases odd
        · rfl
        · cases none
      · have one := here.2 mem
        cases odd
        · cases one
        · rfl
      · simpa using all (c :: before) d after (congrArg (c :: ·) split)

theorem runs_even_iff (chars : List Char) (t : Text) :
    Runs chars [] false t ↔ RunsBefore 0 chars t := by
  simp [@runs_iff_of_read chars [] false t [] rfl, RunsBefore]

theorem runs_odd_iff (chars : List Char) (t : Text) :
    Runs [] chars false t ↔ RunsBefore 1 chars t := by
  simp [@runs_iff_of_read [] chars false t [] rfl, RunsBefore]

/-! ## What a pass does to the runs -/

def slashRule (c : Char) : Substitution := ⟨[c], ['\\', c], false⟩

/-- A character that ends every run and asks for none. -/
def isFree (chars : List Char) (c : Char) : Bool := c != '\\' && c ∉ chars

structure Free (chars : List Char) (s : Substitution) : Prop where
  exact : Exact s
  finds : s.pattern.all (isFree chars) = true
  writes : s.replacement.all (isFree chars) = true
  written : s.replacement ≠ []

instance (chars : List Char) (s : Substitution) : Decidable (Free chars s) :=
  decidable_of_iff (Exact s ∧ s.pattern.all (isFree chars) = true ∧
      s.replacement.all (isFree chars) = true ∧ s.replacement ≠ [])
    ⟨fun ⟨exact, finds, writes, written⟩ => ⟨exact, finds, writes, written⟩,
      fun h => ⟨h.exact, h.finds, h.writes, h.written⟩⟩

theorem runs_free {evens odds : List Char} {x : Text} (some : x ≠ [])
    (free : x.all (isFree (evens ++ odds)) = true) (odd : Bool) (t : Text) :
    Runs evens odds odd (x ++ t) ↔ Runs evens odds false t := by
  induction x generalizing odd with
  | nil => exact absurd rfl some
  | cons c x ih =>
    rw [List.all_cons, Bool.and_eq_true] at free
    obtain ⟨first, rest⟩ := free
    simp only [isFree, List.mem_append, not_or, Bool.and_eq_true, bne_iff_ne,
      decide_eq_true_eq] at first
    obtain ⟨back, even, uneven⟩ := first
    have ended : (c == '\\' && !odd) = false := by simp [back]
    rw [List.cons_append, Runs, ended]
    by_cases none : x = []
    · subst none
      simp [even, uneven]
    · rw [ih none rest]
      simp [even, uneven]

/-- A pass that writes a backslash before each of the turned characters, and is free of all others
that are looked at. What is not kept afterwards has no part in it. -/
structure Turns (keep : Char → Bool) (turned evens odds : List Char) (rules : List Substitution) :
    Prop where
  slash : '\\' ∉ turned ++ evens ++ odds
  apart : ∀ c ∈ turned, c ∉ evens ++ odds
  listed : ∀ c ∈ turned, slashRule c ∈ rules
  kinds : ∀ r ∈ rules, r ∈ turned.map slashRule ∨ Free (turned ++ evens ++ odds) r
  kept : ∀ r ∈ rules, r.pattern.all keep = true ∧ r.replacement.all keep = true

/-- Even runs before the turned characters become odd ones, and all other runs keep their parity. -/
theorem Turns.runs_iff {keep : Char → Bool} {turned evens odds : List Char}
    {rules : List Substitution} (h : Turns keep turned evens odds rules) (odd : Bool) (t : Text) :
    Runs evens (odds ++ turned) odd ((atOnce rules t).filter keep) ↔
      Runs (turned ++ evens) odds odd (t.filter keep) := by
  have slash := h.slash
  simp only [List.mem_append, not_or] at slash
  induction t using atOnce_induction rules generalizing odd with
  | nil => exact Iff.rfl
  | applied c t r found ih =>
    have mem := List.mem_of_find?_eq_some found
    have begins : r.applies (c :: t) = true := applies_of_find?_eq_some found
    obtain ⟨pattern, replacement⟩ := h.kept r mem
    have split (one : Exact r) : (c :: t).filter keep =
        r.pattern ++ (t.drop (r.pattern.length - 1)).filter keep := by
      rw [one.eq_append begins, List.filter_append,
        List.filter_eq_self.2 (List.all_eq_true.1 pattern)]
    rw [atOnce_applied found, List.filter_append,
      List.filter_eq_self.2 (List.all_eq_true.1 replacement)]
    rcases h.kinds r mem with slashed | free
    · obtain ⟨x, turn, rfl⟩ := List.mem_map.1 slashed
      have fresh := h.apart x turn
      simp only [List.mem_append, not_or] at fresh
      have back : (x == '\\') = false := beq_false_of_ne fun same => slash.1.1 (same ▸ turn)
      have rest := ih false
      rw [split ⟨rfl, List.cons_ne_nil x []⟩]
      cases odd with
      | true => simp [slashRule, Runs, turn]
      | false => simpa [slashRule, Runs, turn, fresh, back, slash] using rest
    · have finds : r.pattern.all (isFree ((turned ++ evens) ++ odds)) = true := free.finds
      have writes : r.replacement.all (isFree (evens ++ (odds ++ turned))) = true := by
        refine List.all_eq_true.2 fun d inside => ?_
        have other := List.all_eq_true.1 free.writes d inside
        simp only [isFree, List.mem_append, not_or, Bool.and_eq_true, decide_eq_true_eq] at other ⊢
        exact ⟨other.1, other.2.1.2, other.2.2, other.2.1.1⟩
      rw [split free.exact, runs_free free.written writes, runs_free free.exact.full finds]
      exact ih false
  | copied c t found ih =>
    have still : c ∉ turned := by
      intro turn
      have applied := List.find?_eq_none.1 found (slashRule c) (h.listed c turn)
      simp [slashRule, applies] at applied
    rw [atOnce_copied found, List.filter_cons, List.filter_cons]
    by_cases kept : keep c = true
    · have rest := ih (c == '\\' && !odd)
      simp only [if_pos kept, Runs, List.mem_append, still, false_or, or_false, rest]
    · rw [if_neg kept, if_neg kept]
      exact ih odd

/-! ## The quotes of an element -/

theorem turns_normalized :
    Turns (fun c => c != '\n' && c != '\r') ['"'] ['\'', '@'] [] [escapedQuote, copyrightSign] :=
  ⟨by decide, by simp, by simp [slashRule, escapedQuote], by decide, by decide⟩

theorem turns_plainEscapes : Turns (fun _ => true) ['\'', '@'] [] ['"'] plainEscapes :=
  ⟨by decide, by simp, by simp [slashRule, plainEscapes, escapes], by decide, by decide⟩

/-- In the text of an element the runs before quotes are odd exactly if in the value they are
even. -/
theorem runsBefore_escape {value : Text} (plain : Markup.present value.normalized = false) :
    RunsBefore 1 quotes (escape value.normalized) ↔ RunsBefore 0 quotes value.withoutBreaks := by
  have once : value.normalized =
      (atOnce [escapedQuote, copyrightSign] value).filter fun c => c != '\n' && c != '\r' :=
    congrArg Text.withoutBreaks (inTurn_eq_atOnce (by decide) (by decide) value)
  have whole (t : Text) : t.filter (fun _ => true) = t := List.filter_eq_self.2 fun _ _ => rfl
  have last := turns_plainEscapes.runs_iff false value.normalized
  have first := turns_normalized.runs_iff false value
  rw [whole, whole] at last
  calc RunsBefore 1 quotes (escape value.normalized)
      ↔ Runs [] quotes false (atOnce plainEscapes value.normalized) := by
        rw [escape_eq_atOnce plain, ← runs_odd_iff]
        rfl
    _ ↔ Runs ['\'', '@'] ['"'] false value.normalized := last
    _ ↔ Runs quotes [] false value.withoutBreaks := by
        rw [once]
        exact first
    _ ↔ RunsBefore 0 quotes value.withoutBreaks := runs_even_iff quotes _

theorem runsBefore_of_slashless {t : Text} (h : '\\' ∉ t) (chars : List Char) :
    RunsBefore 0 chars t := by
  intro before c after split _
  have none : '\\' ∉ before.reverse := by
    intro mem
    exact h (split ▸ List.mem_append_left _ (List.mem_reverse.1 mem))
  have empty : slashes before.reverse = 0 := by
    cases back : before.reverse with
    | nil => rfl
    | cons d read =>
      have first : d ≠ '\\' := by
        rintro rfl
        exact none (back ▸ List.mem_cons_self)
      rw [slashes_cons, if_neg first]
  rw [empty]

/-- **The quotes of an element are escaped exactly if the runs of backslashes before the quotes of
the value, read without its line breaks, are even.** So they are if the value has no backslash. -/
theorem quotes_escaped_iff {key value : Text} (phrase : isHeaderKey key = false)
    (accepted : key.any breaksName = false) (plain : Markup.present value.normalized = false) :
    ∃ text, Format.line .android key value =
        .ok (some ("    <string name=\"".toList ++ key ++ "\">".toList ++ text
          ++ "</string>".toList)) ∧
      (RunsBefore 1 quotes text ↔ RunsBefore 0 quotes value.withoutBreaks) ∧
      ('\\' ∉ value → RunsBefore 1 quotes text) := by
  refine ⟨escape value.normalized, ?_, runsBefore_escape plain, ?_⟩
  · rw [Format.line, if_neg (Bool.eq_false_iff.1 phrase), Format.string, string,
      if_neg (Bool.eq_false_iff.1 accepted)]
    rfl
  · intro slashless
    refine (runsBefore_escape plain).2 (runsBefore_of_slashless ?_ quotes)
    exact fun mem => slashless (List.mem_filter.1 mem).1

/-- Backslashes of the sheet that are not in the way: a pair before an apostrophe, and one that a
line break does not part from its pair. -/
theorem quotes_escaped_iff_of_pairs :
    let key := "k".toList
    let value : Text := "it\\\\'s \\\n\\\"here\" \\n @".toList
    isHeaderKey key = false ∧ key.any breaksName = false ∧
      Markup.present value.normalized = false ∧
      ∃ text, Format.line .android key value =
          .ok (some ("    <string name=\"".toList ++ key ++ "\">".toList ++ text
            ++ "</string>".toList)) ∧ RunsBefore 1 quotes text := by
  intro key value
  have phrase : isHeaderKey key = false := by decide
  have accepted : key.any breaksName = false := by decide
  have plain : Markup.present value.normalized = false := by decide
  obtain ⟨text, line, odd, -⟩ := quotes_escaped_iff phrase accepted plain
  have even : Runs quotes [] false value.withoutBreaks := by decide
  exact ⟨phrase, accepted, plain, text, line, odd.2 ((runs_even_iff quotes _).1 even)⟩

/-- A backslash of the sheet right before an apostrophe takes the one that was written for it. -/
theorem quote_left_bare :
    let value : Text := "it\\'s".toList
    Markup.present value.normalized = false ∧
      Format.line .android "k".toList value =
        .ok (some "    <string name=\"k\">it\\\\'s</string>".toList) ∧
      ¬ RunsBefore 1 quotes "it\\\\'s".toList := by
  intro value
  refine ⟨by decide, by decide, fun odd => ?_⟩
  exact absurd (odd "it\\\\".toList '\'' "s".toList rfl (by decide)) (by decide)

end Phrasebook.Android

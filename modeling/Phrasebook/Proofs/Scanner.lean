import Phrasebook.Text.Basic

namespace Phrasebook

structure Scanner (State Token : Type) where
  start : State
  /-- One character read: the tokens it ends, and what is being read after it. -/
  step : State → Char → Option (List Token × State)
  /-- The tokens that the end of a text ends, if the text may end there. -/
  finish : State → Option (List Token)

namespace Scanner

variable {State Token : Type}

def run (s : Scanner State Token) : State → Text → Option (List Token × State)
  | state, [] => some ([], state)
  | state, c :: t =>
    (s.step state c).bind fun first =>
      (s.run first.2 t).map fun rest => (first.1 ++ rest.1, rest.2)

def read (s : Scanner State Token) (t : Text) : Option (List Token) :=
  (s.run s.start t).bind fun all => (s.finish all.2).map (all.1 ++ ·)

/-- A text takes the scanner from one state to another and gives these tokens. -/
def Reads (s : Scanner State Token) (state : State) (x : Text) (tokens : List Token)
    (next : State) : Prop :=
  s.run state x = some (tokens, next)

instance [DecidableEq State] [DecidableEq Token] (s : Scanner State Token) (state : State)
    (x : Text) (tokens : List Token) (next : State) : Decidable (s.Reads state x tokens next) :=
  inferInstanceAs (Decidable (_ = _))

variable {s : Scanner State Token} {state middle next : State} {first tokens : List Token}

theorem Reads.cons {c : Char} {x : Text} (one : s.step state c = some (first, middle))
    (h : s.Reads middle x tokens next) : s.Reads state (c :: x) (first ++ tokens) next := by
  unfold Reads at h ⊢
  rw [run, one, Option.bind_some, h]
  rfl

theorem Reads.single {c : Char} (one : s.step state c = some (tokens, next)) :
    s.Reads state [c] tokens next := by
  rw [Reads, run, one]
  simp [run]

theorem Reads.of_cons {c : Char} {x : Text} (h : s.Reads state (c :: x) tokens next) :
    ∃ (first later : List Token) (middle : State), s.step state c = some (first, middle) ∧
      s.Reads middle x later next ∧ tokens = first ++ later := by
  obtain ⟨⟨first, middle⟩, one, rest⟩ := Option.bind_eq_some_iff.1 h
  obtain ⟨⟨later, last⟩, read, same⟩ := Option.map_eq_some_iff.1 rest
  obtain ⟨rfl, rfl⟩ := Prod.mk.inj same
  exact ⟨first, later, middle, one, read, rfl⟩

theorem Reads.append {x y : Text} (h : s.Reads state x first middle)
    (h' : s.Reads middle y tokens next) : s.Reads state (x ++ y) (first ++ tokens) next := by
  induction x generalizing state first with
  | nil =>
    obtain ⟨rfl, rfl⟩ := Prod.mk.inj (Option.some.inj h)
    exact h'
  | cons c x ih =>
    obtain ⟨early, late, between, one, rest, rfl⟩ := h.of_cons
    rw [List.cons_append, List.append_assoc]
    exact (ih rest).cons one

/-- Pieces after each of which the scanner is where it was before the first. -/
theorem Reads.flatMap {α : Type} {f : α → Text} {g : α → List Token} {pieces : List α}
    (h : ∀ p ∈ pieces, s.Reads state (f p) (g p) state) :
    s.Reads state (pieces.flatMap f) (pieces.flatMap g) state := by
  induction pieces with
  | nil => rfl
  | cons p pieces ih =>
    obtain ⟨first, rest⟩ := List.forall_mem_cons.1 h
    exact first.append (ih rest)

/-- What every character preserves, and what it says of the tokens it ends, holds of a whole
text. -/
theorem Reads.preserves {Kept : State → Prop} {Good : Token → Prop}
    (one : ∀ state c first middle, Kept state → s.step state c = some (first, middle) →
      Kept middle ∧ ∀ token ∈ first, Good token)
    {x : Text} (kept : Kept state) (h : s.Reads state x tokens next) :
    Kept next ∧ ∀ token ∈ tokens, Good token := by
  induction x generalizing state tokens with
  | nil =>
    obtain ⟨rfl, rfl⟩ := Prod.mk.inj (Option.some.inj h)
    exact ⟨kept, by simp⟩
  | cons c x ih =>
    obtain ⟨first, later, middle, step, rest, rfl⟩ := h.of_cons
    obtain ⟨kept, good⟩ := one state c first middle kept step
    obtain ⟨last, more⟩ := ih kept rest
    refine ⟨last, fun token mem => ?_⟩
    rcases List.mem_append.1 mem with mem | mem
    · exact good token mem
    · exact more token mem

theorem read_eq {x : Text} {last : List Token} (h : s.Reads s.start x tokens next)
    (ended : s.finish next = some last) : s.read x = some (tokens ++ last) := by
  rw [read, h, Option.bind_some, ended]
  rfl

theorem reads_of_read {x : Text} (h : s.read x = some tokens) :
    ∃ (first last : List Token) (next : State), s.Reads s.start x first next ∧
      s.finish next = some last ∧ tokens = first ++ last := by
  obtain ⟨⟨first, next⟩, run, rest⟩ := Option.bind_eq_some_iff.1 h
  obtain ⟨last, ended, rfl⟩ := Option.map_eq_some_iff.1 rest
  exact ⟨first, last, next, run, ended, rfl⟩

end Scanner

end Phrasebook

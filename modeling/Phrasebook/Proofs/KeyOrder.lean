import Phrasebook.Keys

namespace Phrasebook.Keys

/-- Empty keys and header keys may repeat, and the strict check passes over them. -/
def exempt (p : Phrase) : Bool := p.key.isEmpty || p.isHeader

/-- What the check demands of the keys of a table. -/
structure InOrder (strict : Bool) (table : Table) : Prop where
  unblank : ∀ p ∈ table, p.key.any isBlank = false
  legal : strict = true → ∀ p ∈ table, exempt p = true ∨ p.key.all isKeyChar = true
  distinct : table.Pairwise fun p q => exempt p = true ∨ p.key ≠ q.key

theorem problemOf_eq_none {strict : Bool} {p : Phrase} {next : Option Nat} :
    problemOf strict p next = none ↔ p.key.any isBlank = false ∧ (exempt p = true ∨
      (strict = true → p.key.all isKeyChar = true) ∧ next = none) := by
  constructor
  · intro h
    unfold problemOf at h
    split at h
    · cases h
    · rename_i unblank
      refine ⟨Bool.eq_false_iff.2 unblank, ?_⟩
      split at h
      · exact .inl ‹_›
      · split at h
        · cases h
        · rename_i legal
          refine .inr ⟨fun on => ?_, Option.map_eq_none_iff.1 h⟩
          simpa [on] using legal
  · rintro ⟨unblank, fine⟩
    unfold problemOf
    rw [if_neg (Bool.eq_false_iff.1 unblank)]
    split
    · rfl
    · rename_i counts
      obtain ⟨legal, rfl⟩ := fine.resolve_left counts
      cases strict with
      | false => rfl
      | true => simp [legal rfl]

theorem find?_eq_none {table : Table} {key : Text} :
    table.find? key = none ↔ ∀ p ∈ table, p.key ≠ key := by
  simp [Table.find?, List.find?_eq_none]

theorem scan_eq_none {strict : Bool} {table : Table} :
    (scan strict table).2 = none ↔ InOrder strict table := by
  induction table with
  | nil => exact iff_of_true rfl ⟨by simp, by simp, .nil⟩
  | cons p table ih =>
    have step : (scan strict (p :: table)).2 = none ↔
        problemOf strict p ((Table.find? table p.key).map (·.row)) = none ∧
          (scan strict table).2 = none := by
      rw [← getElem?_scan strict]
      exact Option.or_eq_none_iff
    rw [step, ih, problemOf_eq_none, Option.map_eq_none_iff, find?_eq_none]
    constructor
    · rintro ⟨⟨unblank, fine⟩, later⟩
      refine ⟨List.forall_mem_cons.2 ⟨unblank, later.unblank⟩, fun on => ?_,
        List.pairwise_cons.2 ⟨fun q mem => ?_, later.distinct⟩⟩
      · exact List.forall_mem_cons.2 ⟨fine.imp_right fun f => f.1 on, later.legal on⟩
      · exact fine.imp_right fun f => (f.2 q mem).symm
    · rintro ⟨unblank, legal, distinct⟩
      obtain ⟨own, unblank⟩ := List.forall_mem_cons.1 unblank
      obtain ⟨apart, distinct⟩ := List.pairwise_cons.1 distinct
      refine ⟨⟨own, ?_⟩, unblank, fun on => (List.forall_mem_cons.1 (legal on)).2, distinct⟩
      by_cases free : exempt p = true
      · exact .inl free
      · refine .inr ⟨fun on => ?_, fun q mem => ?_⟩
        · exact (List.forall_mem_cons.1 (legal on)).1.resolve_left free
        · exact ((apart q mem).resolve_left free).symm

theorem check_eq_ok_iff {strict : Bool} {table : Table} :
    check strict table = .ok () ↔ InOrder strict table := by
  rw [← scan_eq_none, check]
  cases (scan strict table).2 with
  | none => exact iff_of_true rfl rfl
  | some problem => exact ⟨nofun, nofun⟩

theorem check_eq_ok {strict : Bool} {table : Table} (h : check strict table = .ok ()) :
    InOrder strict table := check_eq_ok_iff.1 h

theorem InOrder.sublist {strict : Bool} {table part : Table} (h : InOrder strict table)
    (sub : part.Sublist table) : InOrder strict part :=
  ⟨fun p mem => h.unblank p (sub.subset mem), fun on p mem => h.legal on p (sub.subset mem),
    h.distinct.sublist sub⟩

theorem InOrder.lax {table : Table} (h : InOrder true table) : InOrder false table :=
  ⟨h.unblank, fun on => Bool.noConfusion on, h.distinct⟩

end Phrasebook.Keys

import Mathlib.Data.Fin.Tuple.Basic
import Phrasebook.Proofs.KeyOrder

namespace Phrasebook.Keys

/-- The next place with the key of a phrase, when all places behind it are looked at. -/
def nextWith? (table : Table) (i : Fin table.length) : Option (Fin table.length) :=
  Fin.find? fun j => i < j && table[j].key == table[i].key

def faultAt? (strict : Bool) (table : Table) (i : Fin table.length) : Option Problem :=
  let p := table[i]
  if p.key.any isBlank then some (.keyContainsBlank p.row p.key)
  else if p.key.isEmpty || isHeaderKey p.key then none
  else if strict && p.key.any (!isKeyChar ·) then some (.illegalKey p.row p.key)
  else (nextWith? table i).map fun j => .duplicateKey p.row table[j].row p.key

/-- The first thing wrong, in the order of the table. -/
def compareAll (strict : Bool) (table : Table) : Except Problem Unit :=
  match Fin.findSome? (faultAt? strict table) with
  | some problem => .error problem
  | none => .ok ()

theorem nextWith?_eq_some {table : Table} {i j : Fin table.length}
    (h : nextWith? table i = some j) :
    i < j ∧ table[j].key = table[i].key ∧
      ∀ k, i < k → k < j → table[k].key ≠ table[i].key := by
  obtain ⟨found, least⟩ := Fin.find?_eq_some_iff.1 h
  simp only [Bool.and_eq_true, decide_eq_true_eq, beq_iff_eq] at found
  refine ⟨found.1, found.2, fun k behind before => ?_⟩
  simpa [behind] using least k before

theorem nextWith?_eq_none {table : Table} {i : Fin table.length} :
    nextWith? table i = none ↔ ∀ j, i < j → table[j].key ≠ table[i].key := by
  rw [nextWith?, Fin.find?_eq_none_iff]
  simp

theorem faultAt?_eq_problemOf (strict : Bool) (table : Table) (i : Fin table.length) :
    faultAt? strict table i =
      problemOf strict table[i] ((nextWith? table i).map (table[·].row)) := by
  rw [faultAt?, problemOf, List.not_all_eq_any_not, Option.map_map]
  rfl

/-- What is found among the places of a table is what is found in the table. -/
theorem map_find?_places (table : Table) (test : Phrase → Bool) :
    (Fin.find? fun j : Fin table.length => test table[j]).map (table[·]) =
      List.find? test table := by
  induction table with
  | nil => rfl
  | cons p table ih =>
    have step : (Fin.find? fun j : Fin (table.length + 1) => test (p :: table)[j]) =
        if test p then some 0
        else (Fin.find? fun j : Fin table.length => test table[j]).map Fin.succ := Fin.find?_succ
    rw [List.find?_cons, ← ih]
    refine (congrArg _ step).trans ?_
    cases test p with
    | true => rfl
    | false =>
      simp only [Bool.false_eq_true, if_false, Option.map_map]
      rfl

theorem nextWith?_zero (p : Phrase) (table : Table) :
    nextWith? (p :: table) ⟨0, Nat.zero_lt_succ _⟩ =
      (Fin.find? fun j : Fin table.length => table[j].key == p.key).map Fin.succ := by
  refine (Fin.find?_succ (n := table.length)).trans ?_
  simp

theorem nextWith?_succ (p : Phrase) (table : Table) (i : Fin table.length) :
    nextWith? (p :: table) i.succ = (nextWith? table i).map Fin.succ := by
  refine (Fin.find?_succ (n := table.length)).trans ?_
  simp only [not_lt_zero, decide_false, Bool.false_and, Bool.false_eq_true, if_false,
    Fin.succ_lt_succ_iff]
  rfl

theorem faultAt?_zero (strict : Bool) (p : Phrase) (table : Table) :
    faultAt? strict (p :: table) ⟨0, Nat.zero_lt_succ _⟩ =
      problemOf strict p ((table.find? p.key).map (·.row)) := by
  rw [faultAt?_eq_problemOf, nextWith?_zero, Table.find?, ← map_find?_places table, Option.map_map,
    Option.map_map]
  rfl

theorem faultAt?_succ (strict : Bool) (p : Phrase) (table : Table) (i : Fin table.length) :
    faultAt? strict (p :: table) i.succ = faultAt? strict table i := by
  simp only [faultAt?_eq_problemOf, nextWith?_succ, Option.map_map]
  rfl

theorem scan_eq_findSome? (strict : Bool) (table : Table) :
    (scan strict table).2 = Fin.findSome? (faultAt? strict table) := by
  induction table with
  | nil => rfl
  | cons p table ih =>
    have step : Fin.findSome? (faultAt? strict (p :: table)) =
        (faultAt? strict (p :: table) ⟨0, Nat.zero_lt_succ _⟩).or
          (Fin.findSome? fun i : Fin table.length => faultAt? strict (p :: table) i.succ) :=
      Fin.findSome?_succ
    simp only [scan, step, faultAt?_zero, faultAt?_succ, ← ih, getElem?_scan]

/-- **The index finds what the comparison of all pairs finds**: for any phrases, in whatever order
their rows are. -/
theorem check_eq_compareAll (strict : Bool) (table : Table) :
    check strict table = compareAll strict table := by
  cases first : Fin.findSome? (faultAt? strict table) with
  | none => simp only [check, compareAll, scan_eq_findSome?, first]
  | some problem => simp only [check, compareAll, scan_eq_findSome?, first]

/-- The pair that is reported begins earliest, though another one ends before it does. -/
example :
    compareAll true (["a", "b", "b", "a", "c d"].zipIdx.map fun (key, i) => ⟨key.toList, i, ∅⟩) =
      .error (.duplicateKey 0 3 "a".toList) := by
  decide +kernel

theorem check_eq_error {strict : Bool} {table : Table} {problem : Problem}
    (h : check strict table = .error problem) :
    ∃ i, faultAt? strict table i = some problem ∧ ∀ j < i, faultAt? strict table j = none := by
  rw [check, scan_eq_findSome?] at h
  split at h
  · rename_i found
    cases h
    exact Fin.findSome?_eq_some_iff.1 found
  · cases h

end Phrasebook.Keys

import Mathlib.Data.List.Forall2
import Mathlib.Logic.Relation
import Phrasebook.Columns

namespace Phrasebook

namespace Row

/-- The cell in a column, which is empty if the row is too short. -/
def cell (row : Row) (c : Nat) : Text := row[c]?.getD []

def padded (width : Nat) (row : Row) : Row := row ++ List.replicate (width - row.length) []

/-- The row with its first columns in a given order, padded if it has fewer. -/
def reordered (order : List Nat) (row : Row) : Row := order.map row.cell ++ row.drop order.length

/-- The row with one more cell before a column, padded if it ends before that. -/
def inserted (c : Nat) (x : Text) (row : Row) : Row := (row.padded c).insertIdx c x

/-- The rows differ in empty cells at their ends, and in nothing else. -/
def SameButTrailing (row other : Row) : Prop :=
  ∃ k, other = row ++ List.replicate k [] ∨ row = other ++ List.replicate k []

theorem cell_append_replicate (row : Row) (k c : Nat) :
    Row.cell (row ++ List.replicate k []) c = row.cell c := by
  simp only [cell, List.getElem?_append, List.getElem?_replicate]
  split
  · rfl
  · rename_i outside
    rw [List.getElem?_eq_none (Nat.le_of_not_lt outside)]
    split <;> rfl

theorem SameButTrailing.cell_eq {row other : Row} (h : row.SameButTrailing other) (c : Nat) :
    row.cell c = other.cell c := by
  obtain ⟨k, rfl | rfl⟩ := h
  · exact (cell_append_replicate row k c).symm
  · exact cell_append_replicate other k c

theorem sameButTrailing_padded (row : Row) (width : Nat) : row.SameButTrailing (row.padded width) :=
  ⟨width - row.length, .inl rfl⟩

theorem cell_reordered (row : Row) (order : List Nat) (c : Nat) :
    (row.reordered order).cell c = row.cell (order[c]?.getD c) := by
  simp only [reordered, cell, List.getElem?_append, List.length_map, List.getElem?_map,
    List.getElem?_drop]
  split
  · rename_i inside
    simp [List.getElem?_eq_getElem inside, cell]
  · rename_i outside
    have last : order.length + (c - order.length) = c := by omega
    rw [List.getElem?_eq_none (Nat.le_of_not_lt outside), last]
    rfl

theorem cell_eraseIdx (row : Row) (c i : Nat) :
    Row.cell (row.eraseIdx c) i = row.cell (if i < c then i else i + 1) := by
  simp only [cell, List.getElem?_eraseIdx]
  split <;> rfl

theorem getElem?_inserted (row : Row) (c : Nat) (x : Text) : (row.inserted c x)[c]? = some x := by
  have long : c ≤ (row.padded c).length := by
    simp only [padded, List.length_append, List.length_replicate]
    omega
  rw [inserted, List.getElem?_insertIdx]
  simp [long]

theorem eraseIdx_inserted (row : Row) (c : Nat) (x : Text) :
    (row.inserted c x).eraseIdx c = row.padded c := List.eraseIdx_insertIdx_self x

end Row

/-- The cells of a sheet: its header, and the rows below it. -/
structure Grid where
  header : Row
  rows : List Row

structure Column where
  name : Text
  cells : List Text

namespace Grid

def column (g : Grid) (c : Nat) : Column := ⟨g.header.cell c, g.rows.map (·.cell c)⟩

def columns (g : Grid) : List Column := (List.range' 1 (g.header.length - 1)).map g.column

def map (f : Row → Row) (g : Grid) : Grid := ⟨f g.header, g.rows.map f⟩

/-- One change of the layout, where some names are of interest. The keys stay in the first column. -/
inductive Rearranged (named : Text → Bool) : Grid → Grid → Prop
  /-- The columns stand in another order. -/
  | reorder (g : Grid) (order : List Nat)
      (every : (0 :: order).Perm (List.range g.header.length)) :
      Rearranged named g (g.map (Row.reordered (0 :: order)))
  /-- There is one more column, under another name. -/
  | insert (g : Grid) (c : Nat) (name : Text) (cells : List Text) (behind : 1 ≤ c)
      (within : c ≤ g.header.length) (other : named name = false)
      (each : cells.length = g.rows.length) :
      Rearranged named g
        ⟨g.header.inserted c name, List.zipWith (Row.inserted c) cells g.rows⟩
  /-- There is one column less, which had another name. -/
  | delete (g : Grid) (c : Nat) (name : Text) (behind : 1 ≤ c)
      (there : g.header[c]? = some name) (other : named name = false) :
      Rearranged named g (g.map (·.eraseIdx c))
  /-- Rows have gained or lost empty cells at their ends. -/
  | trail (g : Grid) (rows : List Row) (same : List.Forall₂ Row.SameButTrailing g.rows rows) :
      Rearranged named g ⟨g.header, rows⟩

/-- Two sheets with the same keys and, in any order, the same columns of interest. -/
structure Alike (named : Text → Bool) (g h : Grid) : Prop where
  keys : (g.column 0).cells = (h.column 0).cells
  columns : (g.columns.filter (named ·.name)).Perm (h.columns.filter (named ·.name))

variable {named : Text → Bool}

theorem Alike.refl (g : Grid) : Alike named g g := ⟨rfl, .refl _⟩

theorem Alike.symm {g h : Grid} (alike : Alike named g h) : Alike named h g :=
  ⟨alike.keys.symm, alike.columns.symm⟩

theorem Alike.trans {f g h : Grid} (first : Alike named f g) (second : Alike named g h) :
    Alike named f h :=
  ⟨first.keys.trans second.keys, first.columns.trans second.columns⟩

theorem getElem?_columns (g : Grid) (i : Nat) :
    g.columns[i]? = if i + 1 < g.header.length then some (g.column (i + 1)) else none := by
  unfold columns
  split
  · rename_i inside
    rw [List.getElem?_map, List.getElem?_range' (by omega)]
    simp [Nat.add_comm]
  · rename_i outside
    apply List.getElem?_eq_none
    simp only [List.length_map, List.length_range']
    omega

theorem column_map {f : Row → Row} {place : Nat → Nat}
    (moved : ∀ row c, (f row).cell c = row.cell (place c)) (g : Grid) (c : Nat) :
    (g.map f).column c = g.column (place c) := by
  simp only [column, map, List.map_map, moved]
  congr 1
  exact List.map_congr_left fun row _ => moved row c

theorem columns_reordered (g : Grid) {order : List Nat}
    (every : (0 :: order).Perm (List.range g.header.length)) :
    (g.map (Row.reordered (0 :: order))).columns.Perm g.columns := by
  have width : g.header.length = order.length + 1 := by simpa using every.length_eq.symm
  have same : (g.map (Row.reordered (0 :: order))).header.length = order.length + 1 := by
    simp [map, Row.reordered, width]
  have listed : (g.map (Row.reordered (0 :: order))).columns = order.map g.column := by
    apply List.ext_getElem?
    intro i
    rw [getElem?_columns, same, column_map fun row c => Row.cell_reordered row _ c,
      List.getElem?_map, List.getElem?_cons_succ]
    by_cases inside : i < order.length
    · simp [inside]
    · simp [inside]
  rw [width, List.range_eq_range', List.range'_succ] at every
  rw [listed, columns, width, Nat.add_sub_cancel]
  exact every.cons_inv.map g.column

theorem columns_erased (g : Grid) {c : Nat} (behind : 1 ≤ c) (within : c < g.header.length) :
    (g.map (·.eraseIdx c)).columns = g.columns.eraseIdx (c - 1) := by
  apply List.ext_getElem?
  intro i
  have width : (g.map (·.eraseIdx c)).header.length = g.header.length - 1 :=
    List.length_eraseIdx_of_lt within
  rw [getElem?_columns, width, column_map fun row i => Row.cell_eraseIdx row c i,
    List.getElem?_eraseIdx, getElem?_columns, getElem?_columns]
  by_cases before : i + 1 < c
  · rw [if_pos before, if_pos (by omega), if_pos (by omega), if_pos (by omega)]
  · have same : i + 1 < g.header.length - 1 ↔ i + 1 + 1 < g.header.length := by omega
    rw [if_neg before, if_neg (show ¬ i < c - 1 by omega)]
    simp only [same]

theorem filter_eraseIdx {α : Type} {p : α → Bool} {xs : List α} {i : Nat} {x : α}
    (there : xs[i]? = some x) (fails : p x = false) : (xs.eraseIdx i).filter p = xs.filter p := by
  obtain ⟨inside, rfl⟩ := List.getElem?_eq_some_iff.1 there
  conv_rhs => rw [← List.take_append_drop i xs, List.drop_eq_getElem_cons inside]
  rw [List.eraseIdx_eq_take_drop_succ, List.filter_append, List.filter_append, List.filter_cons,
    fails]
  rfl

theorem alike_erased (g : Grid) {c : Nat} {name : Text} (behind : 1 ≤ c)
    (there : g.header[c]? = some name) (other : named name = false) :
    Alike named g (g.map (·.eraseIdx c)) := by
  obtain ⟨within, -⟩ := List.getElem?_eq_some_iff.1 there
  have column : g.columns[c - 1]? = some (g.column c) := by
    rw [getElem?_columns, Nat.sub_add_cancel behind, if_pos within]
  have unnamed : named (g.column c).name = false := by
    simpa [Grid.column, Row.cell, there] using other
  constructor
  · rw [column_map fun row i => Row.cell_eraseIdx row c i, if_pos (show 0 < c from behind)]
  · rw [columns_erased g behind within, filter_eraseIdx column unnamed]

theorem alike_trailing (g : Grid) {rows : List Row}
    (same : List.Forall₂ Row.SameButTrailing g.rows rows) : Alike named g ⟨g.header, rows⟩ := by
  have column (c : Nat) : g.column c = Grid.column ⟨g.header, rows⟩ c := by
    refine congrArg (Column.mk _) ?_
    generalize g.rows = before at same
    induction same with
    | nil => rfl
    | cons row _ ih => exact congrArg₂ (· :: ·) (row.cell_eq c) ih
  constructor
  · rw [column]
  · rw [columns, columns, List.map_congr_left fun c _ => column c]

/-- What a row is once the cell that it was given is taken out again. -/
theorem erased_inserted (g : Grid) {c : Nat} {cells : List Text} (name : Text)
    (within : c ≤ g.header.length) (each : cells.length = g.rows.length) :
    Grid.map (·.eraseIdx c) ⟨g.header.inserted c name, List.zipWith (Row.inserted c) cells g.rows⟩ =
      ⟨g.header, g.rows.map (Row.padded c)⟩ := by
  have header : g.header.padded c = g.header := by simp [Row.padded, Nat.sub_eq_zero_of_le within]
  rw [map, Row.eraseIdx_inserted, header, List.map_zipWith]
  congr 1
  apply List.ext_getElem
  · simp [each]
  · intro i left right
    simp [Row.eraseIdx_inserted]

/-- The step lemma: a rearrangement keeps the keys and the columns of interest. -/
theorem Rearranged.alike {g h : Grid} (step : Rearranged named g h) : Alike named g h := by
  cases step with
  | reorder order every =>
    constructor
    · rw [column_map fun row c => Row.cell_reordered row _ c]
      rfl
    · exact ((columns_reordered g every).filter _).symm
  | insert c name cells behind within other each =>
    have padded : Alike named g ⟨g.header, g.rows.map (Row.padded c)⟩ :=
      alike_trailing g (List.forall₂_map_right_iff.2
        (List.forall₂_same.2 fun row _ => row.sameButTrailing_padded c))
    let wider : Grid := ⟨g.header.inserted c name, List.zipWith (Row.inserted c) cells g.rows⟩
    have without : Alike named wider (wider.map (·.eraseIdx c)) :=
      alike_erased wider behind (Row.getElem?_inserted g.header c name) other
    rw [erased_inserted g name within each] at without
    exact padded.trans without.symm
  | delete c name behind there other => exact alike_erased g behind there other
  | trail rows same => exact alike_trailing g same

theorem alike_of_rearrangements {g h : Grid} (run : Relation.ReflTransGen (Rearranged named) g h) :
    Alike named g h := by
  induction run with
  | refl => exact .refl g
  | tail _ step ih => exact ih.trans step.alike

end Grid

end Phrasebook

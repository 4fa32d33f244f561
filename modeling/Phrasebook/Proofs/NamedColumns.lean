import Phrasebook.Proofs.Layout
import Phrasebook.Proofs.Tabulation

/-!
# Columns go by their names

A session finds its columns by the names in the header. If none of the names it looks for stands
twice there, it finds the same columns on any two sheets that have them (`Alike.column_eq`), the rows
have the same cells in these columns (`Alike.rows`), and so they meet the same fates. Where the
columns stand, and what stands between them, is of no account (`layout_does_not_matter`).
-/

namespace Phrasebook

/-- A list of at most one member has no other order. -/
theorem eq_of_perm_of_length_le_one {α : Type} {xs ys : List α} (same : xs.Perm ys)
    (few : xs.length ≤ 1) : xs = ys := by
  match xs, few with
  | [], _ => exact (List.nil_perm.1 same).symm
  | [x], _ => exact List.singleton_perm.1 same

theorem Row.getElem?_eq_some_cell {row : Row} {c : Nat} (inside : c < row.length) :
    row[c]? = some (row.cell c) := by
  simp [cell, inside]

theorem columnWhere_eq_find? (test : Text → Bool) (header : Row) :
    columnWhere test header =
      (List.range' 1 (header.length - 1)).find? fun c => test (header.cell c) := by
  apply Option.ext
  intro c
  rw [columnWhere_eq_some, List.find?_range'_eq_some, List.mem_range'_1]
  constructor
  · rintro ⟨behind, ⟨cell, found, passes⟩, least⟩
    obtain ⟨inside, -⟩ := List.getElem?_eq_some_iff.1 found
    rw [Row.getElem?_eq_some_cell inside] at found
    obtain rfl := Option.some.inj found
    refine ⟨passes, ⟨behind, by omega⟩, fun j first before => ?_⟩
    rw [least j first before _ (Row.getElem?_eq_some_cell (by omega))]
    rfl
  · rintro ⟨passes, ⟨behind, inside⟩, least⟩
    refine ⟨behind, ⟨_, Row.getElem?_eq_some_cell (by omega), passes⟩, fun j first before => ?_⟩
    rw [Row.getElem?_eq_some_cell (by omega)]
    rintro _ ⟨⟩
    simpa using least j first before

namespace Grid

theorem names_columns (g : Grid) : g.columns.map (·.name) = g.header.drop 1 := by
  apply List.ext_getElem?
  intro i
  rw [List.getElem?_map, getElem?_columns, List.getElem?_drop, Nat.add_comm 1 i]
  split
  · rename_i inside
    exact (Row.getElem?_eq_some_cell inside).symm
  · rename_i outside
    exact (List.getElem?_eq_none (Nat.le_of_not_lt outside)).symm

theorem find?_columns (g : Grid) (test : Text → Bool) :
    g.columns.find? (test ·.name) = (columnWhere test g.header).map g.column := by
  rw [columns, List.find?_map, columnWhere_eq_find?]
  rfl

/-- As many columns as cells of the header have a name that passes a test. -/
theorem countP_names (g : Grid) (test : Text → Bool) :
    (g.header.drop 1).countP test = (g.columns.filter (test ·.name)).length := by
  rw [← names_columns, List.countP_map, List.countP_eq_length_filter]
  rfl

variable {named test : Text → Bool} {g h : Grid}

/-- A test that only names of interest pass leaves the same columns, too. -/
theorem Alike.filter_perm (alike : Alike named g h)
    (known : ∀ name, test name = true → named name = true) :
    (g.columns.filter (test ·.name)).Perm (h.columns.filter (test ·.name)) := by
  have narrowed (f : Grid) : f.columns.filter (test ·.name) =
      (f.columns.filter (named ·.name)).filter (test ·.name) := by
    rw [List.filter_filter]
    apply List.filter_congr
    intro column _
    cases passes : test column.name with
    | false => rfl
    | true => exact (known _ passes).symm
  rw [narrowed g, narrowed h]
  exact alike.columns.filter _

theorem Alike.countP_eq (alike : Alike named g h)
    (known : ∀ name, test name = true → named name = true) :
    (h.header.drop 1).countP test = (g.header.drop 1).countP test := by
  rw [countP_names, countP_names]
  exact (alike.filter_perm known).length_eq.symm

/-- What is searched by its name is the same column on both sheets, if the name stands once. -/
theorem Alike.column_eq (alike : Alike named g h)
    (known : ∀ name, test name = true → named name = true)
    (once : (g.header.drop 1).countP test ≤ 1) :
    (columnWhere test g.header).map g.column = (columnWhere test h.header).map h.column := by
  rw [countP_names] at once
  rw [← find?_columns, ← find?_columns, ← List.head?_filter, ← List.head?_filter,
    eq_of_perm_of_length_le_one (alike.filter_perm known) once]

/-- Two rows at the same place have the same key, and the same cells where the columns are the
same. -/
theorem Alike.rows (alike : Alike named g h) :
    List.Forall₂ (fun row other => row.cell 0 = other.cell 0 ∧
      ∀ a b : Option Nat, a.map g.column = b.map h.column → a.map row.cell = b.map other.cell)
      g.rows h.rows := by
  rw [List.forall₂_iff_get]
  refine ⟨by simpa [column] using congrArg List.length alike.keys, fun i left right => ?_⟩
  have cells {c d : Nat} (same : (g.column c).cells = (h.column d).cells) :
      (g.rows.get ⟨i, left⟩).cell c = (h.rows.get ⟨i, right⟩).cell d := by
    simpa [column, left, right] using congrArg (·[i]?) same
  refine ⟨cells alike.keys, fun a b same => ?_⟩
  cases a with
  | none =>
    cases b with
    | none => rfl
    | some d => cases same
  | some c =>
    cases b with
    | none => cases same
    | some d => exact congrArg some (cells (congrArg Column.cells (Option.some.inj same)))

end Grid

/-- In a header where a name stands once, any place where it stands is where it is found. -/
theorem columnWhere_of_once {test : Text → Bool} {header : Row}
    (once : (header.drop 1).countP test ≤ 1) {c : Nat} {name : Text} (behind : 1 ≤ c)
    (found : header[c]? = some name) (passes : test name = true) :
    columnWhere test header = some c := by
  refine columnWhere_eq_some.2 ⟨behind, ⟨name, found, passes⟩, fun j first before cell place => ?_⟩
  have earlier : cell ∈ (header.drop 1).take (c - 1) := by
    apply List.mem_of_getElem? (i := j - 1)
    rw [List.getElem?_take_of_lt (by omega), List.getElem?_drop, Nat.add_sub_cancel' first, place]
  have later : name ∈ (header.drop 1).drop (c - 1) := by
    apply List.mem_of_getElem? (i := 0)
    rw [List.getElem?_drop, List.getElem?_drop, Nat.add_zero, Nat.add_sub_cancel' behind, found]
  rw [← List.take_append_drop (c - 1) (header.drop 1), List.countP_append] at once
  have counted := List.countP_pos_iff.2 ⟨name, later, passes⟩
  have nothing : ((header.drop 1).take (c - 1)).countP test = 0 := by omega
  exact eq_false_of_ne_true (List.countP_eq_zero.1 nothing cell earlier)

/-- A language is bound to the platforms column just when its name could stand for that column. -/
theorem bound_to_platforms {header : Row} (once : (header.drop 1).countP isPlatformsCell ≤ 1)
    {c d : Nat} {id : Text} (found : columnWhere isPlatformsCell header = some c)
    (bound : columnWhere (· == id) header = some d) :
    (some d == some c) = isPlatformsCell id := by
  obtain ⟨behind, ⟨name, place, same⟩, -⟩ := columnWhere_eq_some.1 bound
  obtain rfl : name = id := eq_of_beq same
  cases passes : isPlatformsCell name with
  | true =>
    rw [← found, columnWhere_of_once once behind place passes]
    exact beq_self_eq_true _
  | false =>
    apply beq_false_of_ne
    rintro ⟨⟩
    obtain ⟨-, ⟨other, again, platforms⟩, -⟩ := columnWhere_eq_some.1 found
    obtain rfl : name = other := Option.some.inj (place.symm.trans again)
    rw [passes] at platforms
    cases platforms

/-- The platforms column of a header in which it stands once: a language whose name could stand for
it takes it away. -/
theorem platformsColumn_bind {header : Row} (once : (header.drop 1).countP isPlatformsCell ≤ 1)
    (languages : List Language) :
    platformsColumn header (languages.map (·.bind header)) =
      match languages.find? fun l => (columnWhere (· == l.id) header).isNone with
      | some l => .error (.unresolvedLanguage l.id)
      | none => .ok (if languages.any (isPlatformsCell ·.id) then none
          else columnWhere isPlatformsCell header) := by
  have unbound : languages.find? ((·.column.isNone) ∘ fun l : Language => l.bind header) =
      languages.find? fun l => (columnWhere (· == l.id) header).isNone := rfl
  rw [platformsColumn, List.find?_map, unbound]
  cases missing : languages.find? fun l => (columnWhere (· == l.id) header).isNone with
  | some l => rfl
  | none =>
    cases found : columnWhere isPlatformsCell header with
    | none => simp
    | some c =>
      have taken : (languages.map (·.bind header)).any (·.column == some c) =
          languages.any (isPlatformsCell ·.id) := by
        have each (l : Language) (mem : l ∈ languages) :
            ((l.bind header).column == some c) = isPlatformsCell l.id := by
          have resolved := List.find?_eq_none.1 missing l mem
          rw [Option.isNone_iff_eq_none] at resolved
          obtain ⟨d, bound⟩ := Option.ne_none_iff_exists'.1 resolved
          rw [← bound_to_platforms once found bound, ← bound]
          rfl
        rw [List.any_map, Bool.eq_iff_iff, List.any_eq_true, List.any_eq_true]
        exact exists_congr fun l => and_congr_right fun mem => by rw [← each l mem]; rfl
      simp only [Option.map_none, Option.filter_some, taken]
      cases languages.any (isPlatformsCell ·.id) <;> rfl

namespace PlatformFilter

/-- Whether a cell of the platforms column lets its row through. -/
def lets (platform : Platform) (cell : Text) : Bool :=
  (names cell).isEmpty || (names cell).any (Platform.ofName? · == some platform)

/-- A row that ends before the platforms column is as good as one that names no platform there. -/
theorem accepts_eq (f : PlatformFilter) (row : Row) :
    f.accepts row = lets f.platform (row.cell f.column) := by
  unfold accepts Row.cell
  cases row[f.column]? <;> rfl

end PlatformFilter

namespace Table

theorem keyOf_eq (row : Row) : keyOf row = (row.cell 0).trim := by
  rw [keyOf, List.head?_eq_getElem?, Row.cell]

/-- For the text of a row it makes no difference whether a cell is missing or empty. -/
theorem textOf?_eq (row : Row) (l : Language) :
    textOf? row l = (l.column.map row.cell).filter (!·.isEmpty) := by
  unfold textOf? cellOf Row.cell
  cases l.column with
  | none => rfl
  | some c =>
    cases place : row[c]? with
    | none => simp only [Option.bind_some, Option.map_some, place]; rfl
    | some cell => simp only [Option.bind_some, Option.map_some, place]; rfl

theorem phraseOf_congr {languages others : List Language} {row other : Row}
    (keys : row.cell 0 = other.cell 0)
    (texts : languages.map (fun l => (l.id, textOf? row l)) =
      others.map (fun l => (l.id, textOf? other l))) (number : Nat) :
    phraseOf languages number row = phraseOf others number other := by
  have folded (languages : List Language) (row : Row) (p : Phrase) :
      languages.foldl (fun p l => p.withValue l.id (cellOf row l)) p =
        (languages.map fun l => (l.id, textOf? row l)).foldl (fun p t => p.withValue t.1 t.2) p := by
    rw [List.foldl_map]
    simp only [Phrase.withValue, textOf?, Option.filter_filter, Bool.and_self]
  rw [phraseOf, phraseOf, folded, folded, texts, keyOf_eq, keyOf_eq, keys]

/-- Rows that have, one by one, the same fate under two headers. -/
theorem fatesFrom_eq {options other : TableOptions} {languages others : List Language}
    {rows shown : List Row}
    (same : List.Forall₂ (fun row seen => ∀ number,
      fate options languages number row = fate other others number seen) rows shown)
    (index : Nat) :
    fatesFrom options languages index rows = fatesFrom other others index shown := by
  induction same generalizing index with
  | nil => rfl
  | cons first _ ih => rw [fatesFrom_cons, fatesFrom_cons, first, ih]

end Table

def Grid.sheet (g : Grid) : Sheet := ⟨g.header, g.rows.map .ok⟩

namespace Session

variable {s : Session} {g h : Grid}

/-- The names that a session looks for in a header. -/
def named (s : Session) (name : Text) : Bool :=
  s.languages.any (·.id == name) || isPlatformsCell name

theorem named_of_declared {l : Language} (mem : l ∈ s.languages) (name : Text)
    (same : (name == l.id) = true) : s.named name = true := by
  have declared : s.languages.any (·.id == name) = true :=
    List.any_eq_true.2 ⟨l, mem, BEq.symm same⟩
  rw [named, declared, Bool.true_or]

theorem named_of_platforms (name : Text) (passes : isPlatformsCell name = true) :
    s.named name = true := by
  rw [named, passes, Bool.or_true]

/-- Rows with the same cells in the columns of the languages and the platforms meet the same fate. -/
theorem fate_eq {row other : Row} {a b : Option Nat} (keys : row.cell 0 = other.cell 0)
    (platforms : a.map row.cell = b.map other.cell)
    (cells : ∀ l ∈ s.languages, (l.bind g.header).column.map row.cell =
      (l.bind h.header).column.map other.cell) (number : Nat) :
    Table.fate (s.tableOptions a) (s.languages.map (·.bind g.header)) number row =
      Table.fate (s.tableOptions b) (s.languages.map (·.bind h.header)) number other := by
  have rejected (c : Option Nat) (row : Row) : (s.tableOptions c).filter.any (!·.accepts row) =
      (s.options.filterPlatforms && (c.map row.cell).any (!PlatformFilter.lets s.platform ·)) := by
    unfold tableOptions
    cases s.options.filterPlatforms <;> cases c <;> simp [PlatformFilter.accepts_eq]
  have texts : (s.languages.map (·.bind g.header)).map (fun l => (l.id, Table.textOf? row l)) =
      (s.languages.map (·.bind h.header)).map (fun l => (l.id, Table.textOf? other l)) := by
    rw [List.map_map, List.map_map]
    apply List.map_congr_left
    intro l mem
    simp only [Function.comp_apply, Table.textOf?_eq, cells l mem]
    rfl
  rw [Table.fate, Table.fate, rejected, rejected, platforms, Table.phraseOf_congr keys texts]

/-- Two sheets of which the session has found the same columns give the same table, and the same is
recorded of them. -/
theorem ofRows_eq_of_alike {named : Text → Bool} (alike : Grid.Alike named g h) {a b : Option Nat}
    (platforms : a.map g.column = b.map h.column)
    (bound : ∀ l ∈ s.languages, (l.bind g.header).column.map g.column =
      (l.bind h.header).column.map h.column) :
    Table.ofRows (s.tableOptions a) (s.languages.map (·.bind g.header)) (g.rows.map .ok) =
      Table.ofRows (s.tableOptions b) (s.languages.map (·.bind h.header)) (h.rows.map .ok) := by
  have fates := Table.fatesFrom_eq (alike.rows.imp fun row other same =>
    fate_eq same.1 (same.2 a b platforms) fun l mem => same.2 _ _ (bound l mem)) 0
  have reference (header : Row) (table : Table) :
      Table.referenceEvents s.options.reference (s.languages.map (·.bind header)) table =
        Table.referenceEvents s.options.reference s.languages table := by
    rw [Table.referenceEvents, List.any_map]
    rfl
  have options (c : Option Nat) : (s.tableOptions c).reference = s.options.reference := rfl
  rw [Table.ofRows_map_ok, Table.ofRows_map_ok, fates]
  dsimp only
  rw [options, options, reference, reference]
  rfl

/-- **The layout of a sheet does not matter.** If no language and no platforms column stands twice
in the header, then a session makes the same table and records the same of it, or finds the same
language without a column, however the sheet is rearranged: its columns put in another order behind
the keys, columns of other names inserted or deleted, empty cells at the ends of rows added or
removed. -/
theorem layout_does_not_matter (languages : ∀ l ∈ s.languages, (g.header.drop 1).count l.id ≤ 1)
    (platforms : (g.header.drop 1).countP isPlatformsCell ≤ 1)
    (run : Relation.ReflTransGen (Grid.Rearranged s.named) g h) :
    s.tabulate h.sheet = s.tabulate g.sheet := by
  have alike := Grid.alike_of_rearrangements run
  have still : (h.header.drop 1).countP isPlatformsCell ≤ 1 := by
    rwa [alike.countP_eq named_of_platforms]
  have column := alike.column_eq named_of_platforms platforms
  have bound (l : Language) (mem : l ∈ s.languages) :
      (l.bind g.header).column.map g.column = (l.bind h.header).column.map h.column :=
    alike.column_eq (named_of_declared mem) (languages l mem)
  have missing : (s.languages.find? fun l => (columnWhere (· == l.id) g.header).isNone) =
      s.languages.find? fun l => (columnWhere (· == l.id) h.header).isNone := by
    rw [← List.head?_filter, ← List.head?_filter]
    refine congrArg List.head? (List.filter_congr fun l mem => ?_)
    have same := congrArg Option.isNone (bound l mem)
    rwa [Option.isNone_map, Option.isNone_map] at same
  dsimp only [tabulate, Grid.sheet]
  rw [platformsColumn_bind platforms, platformsColumn_bind still, missing]
  cases s.languages.find? fun l => (columnWhere (· == l.id) h.header).isNone with
  | some l => rfl
  | none =>
    refine congrArg Except.ok (ofRows_eq_of_alike alike ?_ bound).symm
    cases s.languages.any (isPlatformsCell ·.id) with
    | true => rfl
    | false => exact column

/-- The languages change places around the platforms, a draft comes and a note goes, and a row that
ended early is filled up while another one ends early now. -/
theorem layout_does_not_matter_of_each_change :
    let s : Session :=
      { platform := .android
        languages :=
          [{ id := "en".toList, destination := [] }, { id := "fr".toList, destination := [] }]
        options := { reportMissing := true } }
    let g : Grid :=
      { header := ["key".toList, "note".toList, "fr".toList, " Platforms".toList, "en".toList]
        rows :=
          [["hi".toList, [], "Salut".toList, "iOS".toList, "Hi".toList],
            ["no".toList, "short".toList, "Non".toList],
            ["yes".toList, [], [], "android, web".toList, "Yes".toList]] }
    let h : Grid :=
      { header := ["key".toList, "en".toList, "draft".toList, "fr".toList, " Platforms".toList]
        rows :=
          [["hi".toList, "Hi".toList, [], "Salut".toList, "iOS".toList],
            ["no".toList, [], "Naw".toList, "Non".toList],
            ["yes".toList, "Yes".toList, [], [], "android, web".toList, [], []]] }
    (∀ l ∈ s.languages, (g.header.drop 1).count l.id ≤ 1) ∧
      (g.header.drop 1).countP isPlatformsCell ≤ 1 ∧
      Relation.ReflTransGen (Grid.Rearranged s.named) g h ∧
      ((s.tabulate g.sheet).toOption.map fun made =>
        (made.2.toOption.map (·.map (·.row)), diagnosticsOf made.1)) =
          some (some [3, 4], [.incomplete 3, .incomplete 4]) ∧
      s.tabulate h.sheet = s.tabulate g.sheet := by
  intro s g h
  have languages : ∀ l ∈ s.languages, (g.header.drop 1).count l.id ≤ 1 := by decide +kernel
  have platforms : (g.header.drop 1).countP isPlatformsCell ≤ 1 := by decide +kernel
  have run : Relation.ReflTransGen (Grid.Rearranged s.named) g h := by
    refine .tail (.tail (.tail (.single (.reorder g [4, 1, 2, 3] (by decide)))
      (.delete _ 2 "note".toList (by decide) rfl (by decide +kernel)))
      (.insert _ 2 "draft".toList [[], "Naw".toList, []] (by decide) (by decide) (by decide +kernel)
        rfl)) (.trail _ h.rows ?_)
    exact .cons ⟨0, .inl rfl⟩ (.cons ⟨1, .inr rfl⟩ (.cons ⟨2, .inl rfl⟩ .nil))
  refine ⟨languages, platforms, run, ?_, layout_does_not_matter languages platforms run⟩
  decide +kernel

end Session

end Phrasebook

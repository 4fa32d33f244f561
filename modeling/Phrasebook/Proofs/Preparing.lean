import Mathlib.Data.List.Basic
import Phrasebook.Session

namespace Phrasebook

/-- What passes a test is all that does, if no two members of the list both pass it. -/
theorem filter_eq_singleton {α : Type} {p : α → Bool} {xs : List α} {x : α} (mem : x ∈ xs)
    (holds : p x = true) (apart : xs.Pairwise fun y z => ¬ (p y = true ∧ p z = true)) :
    xs.filter p = [x] := by
  obtain ⟨before, after, rfl⟩ := List.append_of_mem mem
  obtain ⟨-, rest, across⟩ := List.pairwise_append.1 apart
  have earlier : ∀ y ∈ before, ¬ p y = true := fun y inside passes =>
    across y inside x List.mem_cons_self ⟨passes, holds⟩
  have later : ∀ y ∈ after, ¬ p y = true := fun y inside passes =>
    (List.pairwise_cons.1 rest).1 y inside ⟨holds, passes⟩
  rw [List.filter_append, List.filter_cons_of_pos holds, List.filter_eq_nil_iff.2 earlier,
    List.filter_eq_nil_iff.2 later]
  rfl

namespace Table

/-- Each row with its fate, the rows numbered from an index on. -/
def fatesFrom (options : TableOptions) (languages : List Language) (index : Nat) (rows : List Row) :
    List (Nat × Fate) :=
  (rows.zipIdx index).map fun (row, i) =>
    (rowNumber i, fate options languages (rowNumber i) row)

theorem fatesFrom_cons (options : TableOptions) (languages : List Language) (index : Nat)
    (row : Row) (rows : List Row) :
    fatesFrom options languages index (row :: rows) =
      (rowNumber index, fate options languages (rowNumber index) row) ::
        fatesFrom options languages (index + 1) rows := rfl

/-- The rows before the first one that could not be read. -/
def readable : List (Except Problem Row) → List Row
  | .ok row :: rows => row :: readable rows
  | _ => []

def fault? : List (Except Problem Row) → Option Problem
  | [] => none
  | .error problem :: _ => some problem
  | .ok _ :: rows => fault? rows

theorem eq_of_fault?_eq_none {rows : List (Except Problem Row)} (h : fault? rows = none) :
    rows = (readable rows).map .ok := by
  fun_induction fault? rows with
  | case1 => rfl
  | case2 => cases h
  | case3 row rows ih => exact congrArg (.ok row :: ·) (ih h)

theorem mem_of_fault? {rows : List (Except Problem Row)} {p : Problem}
    (h : fault? rows = some p) : .error p ∈ rows := by
  fun_induction fault? rows with
  | case1 => cases h
  | case2 problem rows =>
    obtain rfl := Option.some.inj h
    exact List.mem_cons_self
  | case3 row rows ih => exact List.mem_cons_of_mem _ (ih h)

theorem ofRowsFrom_eq (options : TableOptions) (languages : List Language) (index : Nat)
    (rows : List (Except Problem Row)) :
    ofRowsFrom options languages index rows =
      let fates := fatesFrom options languages index (readable rows)
      (fates.flatMap fun f => eventsOf options f.1 f.2,
        match fault? rows with
        | some problem => .error problem
        | none => .ok (fates.filterMap (phraseOf? ·.2))) := by
  induction rows generalizing index with
  | nil => rfl
  | cons row rows ih =>
    cases row with
    | error problem => rfl
    | ok row =>
      simp only [ofRowsFrom, ih, readable, fault?, fatesFrom_cons, List.flatMap_cons,
        List.filterMap_cons]
      cases fault? rows with
      | some problem => rfl
      | none => cases phraseOf? (fate options languages (rowNumber index) row) <;> rfl

/-- A table and its events are made of the fates of the rows, up to the first row that could not be
read. -/
theorem ofRows_eq (options : TableOptions) (languages : List Language)
    (rows : List (Except Problem Row)) :
    ofRows options languages rows =
      let fates := fatesFrom options languages 0 (readable rows)
      let events := fates.flatMap fun f => eventsOf options f.1 f.2
      let table := fates.filterMap (phraseOf? ·.2)
      match fault? rows with
      | some problem => (events, .error problem)
      | none => (events ++ referenceEvents options.reference languages table, .ok table) := by
  rw [ofRows, ofRowsFrom_eq]
  cases fault? rows <;> rfl

/-- A finished table is made of the kept rows in their order, and nothing else but the reference
language is recorded after the last row. -/
theorem ofRows_eq_ok {options : TableOptions} {languages : List Language}
    {rows : List (Except Problem Row)} {events : List Event} {table : Table}
    (h : ofRows options languages rows = (events, .ok table)) :
    ∃ cells : List Row, rows = cells.map .ok ∧
      table = (fatesFrom options languages 0 cells).filterMap (phraseOf? ·.2) ∧
      events = ((fatesFrom options languages 0 cells).flatMap fun f => eventsOf options f.1 f.2)
        ++ referenceEvents options.reference languages table := by
  rw [ofRows_eq] at h
  cases read : fault? rows with
  | some problem => simp [read] at h
  | none =>
    simp only [read, Prod.mk.injEq, Except.ok.injEq] at h
    obtain ⟨rfl, rfl⟩ := h
    exact ⟨readable rows, eq_of_fault?_eq_none read, rfl, rfl⟩

theorem eq_of_phraseOf?_fate {options : TableOptions} {languages : List Language} {number : Nat}
    {row : Row} {p : Phrase} (h : phraseOf? (fate options languages number row) = some p) :
    p = phraseOf languages number row ∧ p.hasValue = true := by
  unfold fate at h
  split at h
  · cases h
  · dsimp only at h
    split at h
    · rename_i spoken
      obtain rfl := Option.some.inj h
      exact ⟨rfl, spoken⟩
    · cases h

/-- A phrase of a table comes from the row at a known place, and has a text. -/
theorem mem_kept {options : TableOptions} {languages : List Language} {index : Nat}
    {rows : List Row} {p : Phrase}
    (mem : p ∈ (fatesFrom options languages index rows).filterMap (phraseOf? ·.2)) :
    ∃ i row, rows[i]? = some row ∧ p = phraseOf languages (rowNumber (index + i)) row ∧
      p.hasValue = true := by
  obtain ⟨⟨number, f⟩, listed, kept⟩ := List.mem_filterMap.1 mem
  obtain ⟨⟨row, i⟩, numbered, same⟩ := List.mem_map.1 listed
  obtain ⟨rfl, rfl⟩ := Prod.mk.inj same
  obtain ⟨least, place⟩ := List.mk_mem_zipIdx_iff_le_and_getElem?_sub.1 numbered
  obtain ⟨made, spoken⟩ := eq_of_phraseOf?_fate kept
  exact ⟨i - index, row, place, by rwa [Nat.add_sub_cancel' least], spoken⟩

theorem mem_ofRows {options : TableOptions} {languages : List Language}
    {rows : List (Except Problem Row)} {events : List Event} {table : Table}
    (h : ofRows options languages rows = (events, .ok table)) {p : Phrase} (mem : p ∈ table) :
    ∃ number row, p = phraseOf languages number row := by
  obtain ⟨cells, -, rfl, -⟩ := ofRows_eq_ok h
  obtain ⟨i, row, -, made, -⟩ := mem_kept mem
  exact ⟨_, row, made⟩

/-- The text of a row for a language: none where the cell is missing or empty. -/
def textOf? (row : Row) (l : Language) : Option Text := (cellOf row l).filter (!·.isEmpty)

/-- The fold over the languages, from any phrase: of the languages with one name, the last one has
the say. -/
theorem values_foldl_withValue (languages : List Language) (row : Row) (p : Phrase) (id : Text) :
    (languages.foldl (fun p l => p.withValue l.id (cellOf row l)) p).values[id]? =
      ((languages.reverse.find? (·.id == id)).map (textOf? row)).or p.values[id]? := by
  induction languages generalizing p with
  | nil => rfl
  | cons l languages ih =>
    rw [List.foldl_cons, ih, List.reverse_cons, List.find?_append]
    cases languages.reverse.find? (·.id == id) with
    | some later => rfl
    | none =>
      by_cases same : l.id = id
      · simp [same, Phrase.withValue, textOf?]
      · simp [same, beq_false_of_ne, Phrase.withValue, Std.TreeMap.getElem?_insert]

theorem values_phraseOf (languages : List Language) (number : Nat) (row : Row) (id : Text) :
    (phraseOf languages number row).values[id]? =
      (languages.reverse.find? (·.id == id)).map (textOf? row) := by
  rw [phraseOf, values_foldl_withValue]
  simp

/-- The text of a row under a name: that for the last language of this name. -/
def textUnder? (languages : List Language) (row : Row) (id : Text) : Option Text :=
  (languages.reverse.find? (·.id == id)).bind (textOf? row)

theorem value?_eq_textUnder? (languages : List Language) (number : Nat) (row : Row) (id : Text) :
    (phraseOf languages number row).value? id = textUnder? languages row id := by
  rw [Phrase.value?, values_phraseOf, textUnder?]
  cases languages.reverse.find? (·.id == id) <;> rfl

theorem exists_last {languages : List Language} {l : Language} (mem : l ∈ languages) :
    ∃ last ∈ languages, languages.reverse.find? (·.id == l.id) = some last ∧ last.id = l.id := by
  have found : (languages.reverse.find? (·.id == l.id)).isSome = true :=
    List.find?_isSome.2 ⟨l, List.mem_reverse.2 mem, beq_self_eq_true _⟩
  obtain ⟨last, found⟩ := Option.isSome_iff_exists.1 found
  have same : last.id = l.id := by simpa using List.find?_some found
  exact ⟨last, List.mem_reverse.1 (List.mem_of_find?_eq_some found), found, same⟩

theorem hasValue_eq_any (languages : List Language) (number : Nat) (row : Row) :
    (phraseOf languages number row).hasValue =
      languages.any fun l => (textUnder? languages row l.id).isSome := by
  rw [Bool.eq_iff_iff, Phrase.hasValue_eq_true, List.any_eq_true]
  constructor
  · rintro ⟨id, given⟩
    rw [value?_eq_textUnder?] at given
    obtain ⟨text, found⟩ := Option.isSome_iff_exists.1 given
    obtain ⟨l, last, -⟩ := Option.bind_eq_some_iff.1 found
    have same : l.id = id := by simpa using List.find?_some last
    exact ⟨l, List.mem_reverse.1 (List.mem_of_find?_eq_some last), by rwa [same]⟩
  · rintro ⟨l, -, given⟩
    exact ⟨l.id, by rwa [value?_eq_textUnder?]⟩

theorem lacksValue_eq_any (languages : List Language) (number : Nat) (row : Row) :
    (phraseOf languages number row).lacksValue =
      languages.any fun l => (textUnder? languages row l.id).isNone := by
  rw [Bool.eq_iff_iff, Phrase.lacksValue, List.any_eq_true, List.any_eq_true]
  constructor
  · rintro ⟨⟨id, value⟩, listed, absent⟩
    rw [Std.TreeMap.mem_toList_iff_getElem?_eq_some, values_phraseOf] at listed
    obtain ⟨l, last, rfl⟩ := Option.map_eq_some_iff.1 listed
    have same : l.id = id := by simpa using List.find?_some last
    refine ⟨l, List.mem_reverse.1 (List.mem_of_find?_eq_some last), ?_⟩
    rw [same, textUnder?, last]
    exact absent
  · rintro ⟨l, mem, absent⟩
    obtain ⟨last, -, found, -⟩ := exists_last mem
    rw [textUnder?, found] at absent
    refine ⟨(l.id, textOf? row last), ?_, absent⟩
    rw [Std.TreeMap.mem_toList_iff_getElem?_eq_some, values_phraseOf, found]
    rfl

@[simp] theorem phraseOf_key (languages : List Language) (number : Nat) (row : Row) :
    (phraseOf languages number row).key = keyOf row :=
  List.foldlRecOn languages _ (motive := fun p : Phrase => p.key = keyOf row) rfl
    fun _ same _ _ => same

@[simp] theorem phraseOf_row (languages : List Language) (number : Nat) (row : Row) :
    (phraseOf languages number row).row = number :=
  List.foldlRecOn languages _ (motive := fun p : Phrase => p.row = number) rfl
    fun _ same _ _ => same

theorem value?_phraseOf_isEmpty {languages : List Language} {number : Nat} {row : Row}
    {id text : Text} (h : (phraseOf languages number row).value? id = some text) :
    text.isEmpty = false := by
  have full : ∀ id text, (phraseOf languages number row).value? id = some text →
      text.isEmpty = false := by
    apply List.foldlRecOn languages _ (motive := fun p : Phrase =>
      ∀ id text, p.value? id = some text → text.isEmpty = false)
    · intro id text h
      simp [Phrase.value?] at h
    · intro p ih l _ id text h
      rw [Phrase.value?_withValue] at h
      split at h
      · simpa using (Option.filter_eq_some_iff.1 h).2
      · exact ih id text h
  exact full id text h

theorem filter_declared {languages : List Language} (distinct : (languages.map (·.id)).Nodup)
    {l : Language} (mem : l ∈ languages) : languages.filter (·.id == l.id) = [l] := by
  refine filter_eq_singleton mem (beq_self_eq_true _) ((List.pairwise_map.1 distinct).imp ?_)
  rintro j k differ ⟨first, second⟩
  exact differ ((eq_of_beq first).trans (eq_of_beq second).symm)

theorem find?_declared {languages : List Language} (distinct : (languages.map (·.id)).Nodup)
    {l : Language} (mem : l ∈ languages) : languages.find? (·.id == l.id) = some l := by
  rw [← List.head?_filter, filter_declared distinct mem]
  rfl

/-- Of the languages with one name, the last one is the first one, if there is no other. -/
theorem find?_reverse_declared {languages : List Language}
    (distinct : (languages.map (·.id)).Nodup) (id : Text) :
    languages.reverse.find? (·.id == id) = languages.find? (·.id == id) := by
  cases found : languages.find? (·.id == id) with
  | none =>
    rw [List.find?_eq_none] at found ⊢
    intro l mem
    exact found l (List.mem_reverse.1 mem)
  | some l =>
    have same : l.id = id := by simpa using List.find?_some found
    subst same
    rw [← List.head?_filter, List.filter_reverse,
      filter_declared distinct (List.mem_of_find?_eq_some found)]
    rfl

theorem value?_phraseOf {languages : List Language} (distinct : (languages.map (·.id)).Nodup)
    (number : Nat) (row : Row) (id : Text) :
    (phraseOf languages number row).value? id =
      (languages.find? (·.id == id)).bind (textOf? row) := by
  rw [value?_eq_textUnder?, textUnder?, find?_reverse_declared distinct]

theorem textUnder?_declared {languages : List Language} (distinct : (languages.map (·.id)).Nodup)
    {l : Language} (mem : l ∈ languages) (row : Row) :
    textUnder? languages row l.id = textOf? row l := by
  rw [textUnder?, find?_reverse_declared distinct, find?_declared distinct mem]
  rfl

theorem hasValue_phraseOf {languages : List Language} (distinct : (languages.map (·.id)).Nodup)
    (number : Nat) (row : Row) :
    (phraseOf languages number row).hasValue = languages.any fun l => (textOf? row l).isSome := by
  rw [hasValue_eq_any, Bool.eq_iff_iff, List.any_eq_true, List.any_eq_true]
  refine exists_congr fun l => and_congr_right fun mem => ?_
  rw [textUnder?_declared distinct mem]

theorem lacksValue_phraseOf {languages : List Language} (distinct : (languages.map (·.id)).Nodup)
    (number : Nat) (row : Row) :
    (phraseOf languages number row).lacksValue = languages.any fun l => (textOf? row l).isNone := by
  rw [lacksValue_eq_any, Bool.eq_iff_iff, List.any_eq_true, List.any_eq_true]
  refine exists_congr fun l => and_congr_right fun mem => ?_
  rw [textUnder?_declared distinct mem]

end Table

/-- A phrase with full texts adds the line of its format, if it has a key, a text and a line. -/
theorem Document.line?_contribution {p : Phrase}
    (full : ∀ id text, p.value? id = some text → text.isEmpty = false) (platform : Platform)
    (reference language : Text) :
    (contribution platform reference language p).line? =
      if p.key.isEmpty then none
      else (p.value? (if p.isHeader then reference else language)).bind fun value =>
        (Format.line platform p.key value).toOption.join := by
  unfold contribution valueIn?
  cases p.key.isEmpty
  · cases given : p.value? (if p.isHeader then reference else language) with
    | none => rfl
    | some value =>
      have kept : (!value.isEmpty) = true := by rw [full _ value given]; rfl
      rw [Option.filter_some, if_pos kept, Option.bind_some]
      dsimp only
      rcases Format.line platform p.key value with fault | _ | line <;> rfl
  · rfl

/-- The lines of a document, when each phrase adds what is written for its item. -/
theorem Document.lines_render {α : Type} {platform : Platform} {reference : Text} {table : Table}
    {l : Language} {item? : Phrase → Option α} {write : α → Text}
    (h : ∀ p ∈ table, (contribution platform reference l.id p).line? = (item? p).map write) :
    (render platform reference table l).document.lines = (table.filterMap item?).map write := by
  rw [List.map_filterMap, render, List.filterMap_map]
  exact List.filterMap_congr h

namespace Session

theorem firstRepeated_eq_none {earlier ids : List Text} (h : firstRepeated earlier ids = none) :
    ids.Nodup ∧ ∀ id ∈ ids, id ∉ earlier := by
  induction ids generalizing earlier with
  | nil => simp
  | cons id ids ih =>
    unfold firstRepeated at h
    split at h
    · cases h
    · rename_i fresh
      obtain ⟨distinct, apart⟩ := ih h
      refine ⟨List.nodup_cons.2 ⟨fun mem => apart id mem List.mem_cons_self, distinct⟩, ?_⟩
      intro other mem
      rcases List.mem_cons.1 mem with rfl | mem
      · exact fresh
      · exact fun seen => apart other mem (List.mem_cons_of_mem _ seen)

theorem new_eq_ok {platform : Platform} {languages : List Language} {s : Session}
    (h : new platform languages = .ok s) :
    s = { platform := platform, languages := languages } ∧ (languages.map (·.id)).Nodup := by
  unfold new at h
  split at h
  · cases h
  · split at h
    · cases h
    · rename_i once
      exact ⟨(Except.ok.inj h).symm, (firstRepeated_eq_none once).1⟩

/-- A preparation that hands out a table, with what can be checked of it. -/
theorem exists_prepared {s : Session} {bytes : Bytes} {P : Table → Prop}
    (h : ∃ table ∈ (s.prepare bytes).2.toOption, P table) :
    ∃ (s' : Session) (table : Table), s.prepare bytes = (s', .ok table) ∧ P table := by
  obtain ⟨table, handed, holds⟩ := h
  refine ⟨(s.prepare bytes).1, table, ?_, holds⟩
  cases run : s.prepare bytes with
  | mk s' result =>
    rw [run] at handed
    cases result with
    | error p => cases handed
    | ok made =>
      obtain rfl := Option.some.inj handed
      rfl

/-- A table is handed out only when every step before it has succeeded. -/
theorem prepare_eq_ok {s s' : Session} {bytes : Bytes} {table : Table}
    (h : s.prepare bytes = (s', .ok table)) :
    ∃ (sheet : Sheet) (column : Option Nat) (events : List Event),
      Sheet.read s.options.sheet bytes = .ok sheet ∧
      platformsColumn sheet.header (s.languages.map (·.bind sheet.header)) = .ok column ∧
      Table.ofRows (s.tableOptions column) (s.languages.map (·.bind sheet.header)) sheet.rows =
        (events, .ok table) ∧
      Keys.check s.options.strictKeys table = .ok () ∧
      s' = { s with
        languages := s.languages.map (·.bind sheet.header)
        events := events ++ [.builtTable table.length] } := by
  obtain ⟨hs, ht⟩ := Prod.mk.inj h
  cases read : Sheet.read s.options.sheet bytes with
  | error p => simp [preparation, read] at ht
  | ok sheet =>
    cases found : platformsColumn sheet.header (s.languages.map (·.bind sheet.header)) with
    | error p => simp [preparation, read, found] at ht
    | ok column =>
      cases made : Table.ofRows (s.tableOptions column)
          (s.languages.map (·.bind sheet.header)) sheet.rows with
      | mk events result =>
        cases result with
        | error p => simp [preparation, read, found, made] at ht
        | ok phrases =>
          cases keys : Keys.check s.options.strictKeys phrases with
          | error p => simp [preparation, read, found, made, keys, Except.map] at ht
          | ok =>
            have same : phrases = table := by
              simpa [preparation, read, found, made, keys, Except.map] using ht
            subst same
            refine ⟨sheet, column, events, rfl, found, made, keys, ?_⟩
            simpa [preparation, read, found, made, keys, Except.map, problemEvents] using hs.symm

/-- The documents of a prepared table are those of the declared languages in their order. -/
theorem documents_of_prepare {s s' : Session} {bytes : Bytes} {table : Table}
    (h : s.prepare bytes = (s', .ok table)) :
    (s'.render table).2 =
      s.languages.map
        fun l => (Document.render s.platform s.options.reference table l).document := by
  obtain ⟨_, _, _, _, _, _, _, rfl⟩ := prepare_eq_ok h
  simp only [render, rendered, Document.renderAll, List.map_map]
  rfl

/-- What holds of the document of every declared language holds of all documents. -/
theorem forall_documents {s s' : Session} {bytes : Bytes} {table : Table}
    (h : s.prepare bytes = (s', .ok table)) {P : Document → Prop}
    (all : ∀ l ∈ s.languages, P (Document.render s.platform s.options.reference table l).document) :
    (s'.render table).2.map (·.language) = s.languages.map (·.id) ∧
      ∀ d ∈ (s'.render table).2, P d := by
  rw [documents_of_prepare h]
  refine ⟨by simp [Document.render], ?_⟩
  intro d mem
  obtain ⟨l, declared, rfl⟩ := List.mem_map.1 mem
  exact all l declared

theorem value?_isEmpty_of_prepare {s s' : Session} {bytes : Bytes} {table : Table}
    (h : s.prepare bytes = (s', .ok table)) {p : Phrase} (mem : p ∈ table) (id text : Text)
    (given : p.value? id = some text) : text.isEmpty = false := by
  obtain ⟨_, _, _, _, _, made, _, _⟩ := prepare_eq_ok h
  obtain ⟨number, row, rfl⟩ := Table.mem_ofRows made mem
  exact Table.value?_phraseOf_isEmpty given

theorem diagnostics_render (s : Session) (table : Table) :
    (s.render table).1.diagnostics =
      s.diagnostics ++ (s.rendered table).flatMap (·.diagnostics) := by
  have own : diagnosticsOf ((s.rendered table).flatMap fun r => r.diagnostics.map .noted) =
      (s.rendered table).flatMap (·.diagnostics) := by
    simp only [diagnosticsOf, List.filterMap_flatMap]
    exact List.flatMap_congr fun r _ => diagnosticsOf_map_noted r.diagnostics
  simp only [render, record, diagnostics, diagnosticsOf_append, own]

end Session

end Phrasebook

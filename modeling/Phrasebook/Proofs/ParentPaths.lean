import Phrasebook.Path

namespace Phrasebook.Path

/-- The directories above a path: its parent, and what is above that. -/
inductive IsAbove (q : Path) : Path → Prop
  | parent {p : Path} : parent? p = some q → IsAbove q p
  | further {p d : Path} : parent? p = some d → IsAbove q d → IsAbove q p

/-- The pieces of a path after its anchor, the last first. -/
def rest (p : Path) : List Text := (pieces (p.drop (anchor p).length)).reverse

def names (p : Path) : List Text := p.pieces.filter (!isIdle ·)

theorem pieces_cut (d more : Text) : pieces (d ++ '/' :: more) = pieces d ++ pieces more :=
  List.splitOn_append_cons_self d more

theorem pieces_ne_nil (p : Path) : pieces p ≠ [] := List.splitOn_ne_nil '/' p

theorem joined_pieces (p : Path) : Text.joined ['/'] (pieces p) = p := List.intercalate_splitOn '/'

/-- A path begins at the root, or with a dot that stands alone, or has no anchor. -/
theorem anchor_cases (p : Path) :
    (anchor p = ['/'] ∧ ∃ t, p = '/' :: t) ∨
      (anchor p = ['.'] ∧ (p = ['.'] ∨ ∃ t, p = '.' :: '/' :: t)) ∨ anchor p = [] := by
  unfold anchor
  split
  · rename_i absolute
    refine .inl ⟨rfl, ?_⟩
    cases p with
    | nil => cases absolute
    | cons c t => exact ⟨t, by simpa [isAbsolute] using absolute⟩
  · split
    · rename_i dotted
      refine .inr (.inl ⟨rfl, ?_⟩)
      have whole := joined_pieces p
      cases found : pieces p with
      | nil => exact absurd found (pieces_ne_nil p)
      | cons first more =>
        obtain rfl : first = ['.'] := by simpa [found] using dotted
        rw [found] at whole
        cases more with
        | nil => exact .inl (by simpa [Text.joined] using whole.symm)
        | cons next more =>
          rw [Text.joined, List.intercalate_cons_cons] at whole
          exact .inr ⟨_, whole.symm⟩
    · exact .inr (.inr rfl)

theorem anchor_isPrefix (p : Path) : anchor p <+: p := by
  rcases anchor_cases p with ⟨root, t, rfl⟩ | ⟨dot, rfl | ⟨t, rfl⟩⟩ | none
  · exact root ▸ ⟨t, rfl⟩
  · exact dot ▸ ⟨[], rfl⟩
  · exact dot ▸ ⟨'/' :: t, rfl⟩
  · exact none ▸ List.nil_prefix

theorem ofStem_rest (p : Path) : ofStem (anchor p) (rest p) = p := by
  rw [ofStem, rest, List.reverse_reverse, joined_pieces]
  exact (List.prefix_iff_eq_append.1 (anchor_isPrefix p))

/-- A path that is cut at a slash has the anchor that it had before. -/
theorem anchor_cut {d : Path} (filled : d ≠ []) (more : Text) :
    anchor (d ++ '/' :: more) = anchor d := by
  obtain ⟨c, t, rfl⟩ := List.exists_cons_of_ne_nil filled
  have head : (pieces (c :: t ++ '/' :: more)).head? = (pieces (c :: t)).head? := by
    rw [pieces_cut, List.head?_append, List.head?_eq_some_head (pieces_ne_nil _), Option.some_or]
  unfold anchor
  rw [head]
  rfl

/-- The anchor names nothing. -/
theorem names_eq_rest (p : Path) : names p = (rest p).reverse.filter (!isIdle ·) := by
  rw [names, rest, List.reverse_reverse]
  rcases anchor_cases p with ⟨root, t, rfl⟩ | ⟨dot, rfl | ⟨t, rfl⟩⟩ | none
  · rw [root, show '/' :: t = [] ++ '/' :: t from rfl, pieces_cut]
    rfl
  · rw [dot]
    rfl
  · rw [dot]
    show (pieces (['.'] ++ '/' :: t)).filter _ = (pieces ([] ++ '/' :: t)).filter _
    rw [pieces_cut, pieces_cut]
    rfl
  · rw [none]
    rfl

theorem slash_notMem_of_mem_pieces {p piece : Text} (h : piece ∈ pieces p) : '/' ∉ piece := by
  induction p generalizing piece with
  | nil =>
    obtain rfl : piece = [] := by simpa [pieces] using h
    exact List.not_mem_nil
  | cons c p ih =>
    rw [pieces, List.splitOn_cons_eq_if_modifyHead] at h
    split at h
    · rcases List.mem_cons.1 h with rfl | h
      · exact List.not_mem_nil
      · exact ih h
    · rename_i other
      obtain ⟨first, more, found⟩ := List.exists_cons_of_ne_nil (pieces_ne_nil p)
      rw [show p.splitOn '/' = first :: more from found, List.modifyHead_cons] at h
      rw [found] at ih
      rcases List.mem_cons.1 h with rfl | h
      · intro inside
        rcases List.mem_cons.1 inside with rfl | inside
        · exact other (beq_self_eq_true _)
        · exact ih List.mem_cons_self inside
      · exact ih (List.mem_cons_of_mem first h)

theorem pieces_joined {p : Path} {chosen : List Text} (h : chosen ⊆ pieces p)
    (filled : chosen ≠ []) : pieces (Text.joined ['/'] chosen) = chosen :=
  List.splitOn_intercalate '/' (fun _ within => slash_notMem_of_mem_pieces (h within)) filled

/-- The first stem begins with the first piece that names something. -/
theorem stemsOf_eq_cons {s stem : Stem} {later : List Stem} (h : stemsOf s = stem :: later) :
    ∃ idle piece above, s = idle ++ stem ∧ stem = piece :: above ∧ isIdle piece = false ∧
      later = stemsOf above ∧ ∀ x ∈ idle, isIdle x = true := by
  induction s with
  | nil => cases h
  | cons piece above ih =>
    rw [stemsOf] at h
    split at h
    · rename_i nothing
      obtain ⟨idle, first, before, rfl, parts, named, deeper, all⟩ := ih h
      exact ⟨piece :: idle, first, before, rfl, parts, named, deeper,
        List.forall_mem_cons.2 ⟨nothing, all⟩⟩
    · rename_i named
      obtain ⟨rfl, rfl⟩ := List.cons.inj h
      exact ⟨[], piece, above, rfl, rfl, Bool.eq_false_iff.2 named, rfl, List.forall_mem_nil _⟩

theorem stemsOf_eq_nil {s : Stem} (h : stemsOf s = []) : ∀ x ∈ s, isIdle x = true := by
  induction s with
  | nil => exact List.forall_mem_nil _
  | cons piece above ih =>
    rw [stemsOf] at h
    split at h
    · rename_i nothing
      exact List.forall_mem_cons.2 ⟨nothing, ih h⟩
    · cases h

theorem filter_of_idle {s : List Text} (h : ∀ x ∈ s, isIdle x = true) :
    s.filter (!isIdle ·) = [] := by
  apply List.filter_eq_nil_iff.2
  intro x hx
  simp [h x hx]

/-- A path is cut off at the slash before some of its last pieces. What is left has the anchor of
the path and the other pieces. -/
theorem cut_of_rest {p : Path} {after before : List Text} (h : rest p = after ++ before)
    (ends : after ≠ []) {x : Text} (within : x ∈ before) (named : isIdle x = false) :
    ∃ more, p = ofStem (anchor p) before ++ '/' :: more ∧ ofStem (anchor p) before ≠ [] ∧
      anchor (ofStem (anchor p) before) = anchor p ∧ rest (ofStem (anchor p) before) = before := by
  have filled : before.reverse ≠ [] := by
    simpa using List.ne_nil_of_mem within
  have taken : before.reverse ⊆ pieces (p.drop (anchor p).length) := by
    rw [← List.reverse_reverse (pieces _), ← rest, h, List.reverse_append]
    exact List.subset_append_left _ _
  have again := pieces_joined taken filled
  have whole : p = ofStem (anchor p) before ++ '/' :: Text.joined ['/'] after.reverse := by
    refine (ofStem_rest p).symm.trans ?_
    rw [h, ofStem, List.reverse_append, Text.joined_append _ filled (by simpa using ends), ofStem]
    simp only [List.append_assoc, List.cons_append, List.nil_append]
  have text : ofStem (anchor p) before ≠ [] := by
    intro empty
    obtain ⟨-, none⟩ := List.append_eq_nil_iff.1 empty
    rw [none] at again
    obtain rfl : before = [[]] := List.reverse_eq_iff.1 again.symm
    obtain rfl := List.mem_singleton.1 within
    cases named
  have begins : anchor (ofStem (anchor p) before) = anchor p :=
    (anchor_cut text _).symm.trans (congrArg anchor whole.symm)
  refine ⟨_, whole, text, begins, ?_⟩
  rw [rest, begins, ofStem, List.drop_left, again, List.reverse_reverse]

theorem isAbsolute_cut {d : Path} (filled : d ≠ []) (more : Text) :
    isAbsolute (d ++ '/' :: more) = isAbsolute d := by
  cases d with
  | nil => exact absurd rfl filled
  | cons c d => rfl

theorem isAbsolute_anchor (p : Path) : isAbsolute (anchor p) = isAbsolute p := by
  unfold anchor
  split
  · rename_i absolute
    exact absolute.symm
  · rename_i relative
    rw [Bool.eq_false_iff.2 relative]
    split <;> rfl

theorem names_anchor (p : Path) : names (anchor p) = [] := by
  rcases anchor_cases p with ⟨root, -⟩ | ⟨dot, -⟩ | none
  · rw [root]
    rfl
  · rw [dot]
    rfl
  · rw [none]
    rfl

/-- With two names or more, the parent goes on with the stems of the path, from the second. -/
theorem parent?_of_two {p : Path} {stem next : Stem} {later : List Stem}
    (h : stems p = stem :: next :: later) :
    ∃ d more, parent? p = some d ∧ d = ofStem (anchor p) next ∧ p = d ++ '/' :: more ∧ d ≠ [] ∧
      anchor d = anchor p ∧ stems d = next :: later ∧ ∃ name, names p = names d ++ [name] := by
  obtain ⟨after, name, above, whole, rfl, named, deeper, idle⟩ := stemsOf_eq_cons h
  obtain ⟨between, first, before, rfl, rfl, kept, more_stems, passed⟩ :=
    stemsOf_eq_cons deeper.symm
  have parts : rest p = (after ++ name :: between) ++ first :: before := by
    rw [rest, whole]
    simp
  obtain ⟨more, cut, filled, begins, left⟩ :=
    cut_of_rest parts (by simp) List.mem_cons_self kept
  refine ⟨_, more, ?_, rfl, cut, filled, begins, ?_, name, ?_⟩
  · rw [parent?, h]
  · rw [stems, ← rest, left, stemsOf, kept, more_stems]
    rfl
  · have one : (after ++ name :: between).filter (!isIdle ·) = [name] := by
      simp [filter_of_idle idle, filter_of_idle passed, named]
    rw [names_eq_rest, names_eq_rest, left, parts, List.filter_reverse, List.filter_reverse,
      List.filter_append, one, List.reverse_append, List.reverse_singleton]

/-- A path with a name in it has a parent, which lacks the last of its names. The parent begins
where the path does, and is part of its text. -/
theorem exists_parent {p : Path} (named : names p ≠ []) :
    ∃ d name, parent? p = some d ∧ names p = names d ++ [name] ∧ isAbsolute d = isAbsolute p ∧
      d <+: p := by
  cases found : stems p with
  | nil =>
    rw [names_eq_rest, filter_of_idle] at named
    · exact absurd rfl named
    · intro x within
      exact stemsOf_eq_nil found x (List.mem_reverse.1 within)
  | cons stem later =>
    cases later with
    | nil =>
      obtain ⟨after, name, above, whole, rfl, kept, deeper, idle⟩ := stemsOf_eq_cons found
      refine ⟨anchor p, name, by rw [parent?, found], ?_, isAbsolute_anchor p, anchor_isPrefix p⟩
      have passed := filter_of_idle (stemsOf_eq_nil deeper.symm)
      have parts : rest p = after ++ name :: above := whole
      rw [names_eq_rest, parts, names_anchor]
      simp [filter_of_idle idle, passed, kept]
    | cons next later =>
      obtain ⟨d, more, parent, -, cut, filled, -, -, name, fewer⟩ := parent?_of_two found
      refine ⟨d, name, parent, fewer, ?_, cut ▸ List.prefix_append _ _⟩
      exact (isAbsolute_cut filled more).symm.trans (congrArg isAbsolute cut.symm)

/-- A parent is what the path begins with, or goes on with the stems of the path. -/
theorem parent?_cases {p d : Path} (h : parent? p = some d) (filled : d ≠ []) :
    d = ['/'] ∨ d = ['.'] ∨
      ∃ next later, stems d = next :: later ∧ d = ofStem (anchor d) next := by
  cases found : stems p with
  | nil =>
    rw [parent?, found] at h
    dsimp only at h
    split at h
    · cases h
    · exact absurd (Option.some.inj h).symm filled
  | cons stem later =>
    cases later with
    | nil =>
      obtain rfl : anchor p = d := by simpa [parent?, found] using h
      rcases anchor_cases p with ⟨root, -⟩ | ⟨dot, -⟩ | none
      · exact .inl root
      · exact .inr (.inl dot)
      · exact absurd none filled
    | cons next later =>
      obtain ⟨d', -, parent, place, -, -, begins, goes_on, -⟩ := parent?_of_two found
      obtain rfl : d' = d := Option.some.inj (parent.symm.trans h)
      exact .inr (.inr ⟨next, later, goes_on, by rw [begins]; exact place⟩)

/-- Each stem after the first is the path of a directory above. -/
theorem isAbove_of_stem {p : Path} {stem : Stem} (h : stem ∈ (stems p).tail) :
    IsAbove (ofStem (anchor p) stem) p := by
  generalize all : stems p = found at h
  induction found generalizing p with
  | nil => cases h
  | cons first later ih =>
    cases later with
    | nil => cases h
    | cons next later =>
      obtain ⟨d, -, parent, place, -, -, begins, goes_on, -⟩ := parent?_of_two all
      rcases List.mem_cons.1 h with rfl | h
      · exact .parent (place ▸ parent)
      · exact .further parent (begins ▸ ih goes_on h)

/-! ## The name at the end -/

/-- The name at the end of a path. A path that ends in a slash, a dot or two dots has none. -/
def fileName? (p : Path) : Option Text :=
  p.pieces.getLast?.filter fun name => !isIdle name && name != "..".toList

theorem fileName?_eq_some {p : Path} {name : Text} :
    p.fileName? = some name ↔
      ∃ above, p.pieces = above ++ [name] ∧ isIdle name = false ∧
        (name == "..".toList) = false := by
  rw [fileName?, Option.filter_eq_some_iff, List.getLast?_eq_some_iff]
  simp only [Bool.and_eq_true, Bool.not_eq_true', bne, exists_and_right]

theorem dropWhile_pieces {p : Path} {above : List Text} {name : Text}
    (whole : p.pieces = above ++ [name]) (idle : isIdle name = false) :
    p.pieces.reverse.dropWhile List.isEmpty = name :: above.reverse := by
  rw [whole, List.reverse_append]
  apply List.dropWhile_cons_of_neg
  intro empty
  rw [isIdle, empty] at idle
  cases idle

/-- The last name of a path is at the end, so no slash follows it. -/
theorem getLast?_ne_slash {p : Path} {above : List Text} {name : Text}
    (whole : p.pieces = above ++ [name]) (idle : isIdle name = false) :
    p.getLast? ≠ some '/' := by
  intro slash
  obtain ⟨before, rfl⟩ := List.getLast?_eq_some_iff.1 slash
  rw [pieces_cut before []] at whole
  obtain ⟨-, last⟩ := List.append_inj' whole rfl
  obtain rfl := (List.cons.inj last).1
  cases idle

end Phrasebook.Path

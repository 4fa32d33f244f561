import Phrasebook.Proofs.FilePaths
import Phrasebook.Proofs.ParentPaths

namespace Phrasebook.FileSystem

theorem enter_append (directories : Location → Bool) (l : Location) (pieces later : List Text) :
    enter directories l (pieces ++ later) =
      (enter directories l pieces).bind fun place => enter directories place later := by
  induction pieces generalizing l with
  | nil =>
    rw [List.nil_append, enter]
    split
    · rfl
    · rename_i nowhere
      exact enter_of_no_directory (Bool.eq_false_iff.2 nowhere) later
  | cons piece pieces ih =>
    simp only [List.cons_append, enter, ih]
    split
    · rfl
    · repeat' split
      all_goals rfl

theorem enter_name {directories : Location → Bool} {l : Location} {name : Text}
    (here : directories l = true) (idle : Path.isIdle name = false)
    (up : (name == "..".toList) = false) (short : isTooLong name = false) (pieces : List Text) :
    enter directories l (name :: pieces) = enter directories (name :: l) pieces := by
  rw [enter, here, idle, up, short]
  rfl

/-- A piece that names nothing leads nowhere else. -/
theorem enter_filter (directories : Location → Bool) (l : Location) (pieces : List Text) :
    enter directories l (pieces.filter (!Path.isIdle ·)) = enter directories l pieces := by
  induction pieces generalizing l with
  | nil => rfl
  | cons piece pieces ih =>
    cases here : directories l with
    | false => rw [enter_of_no_directory here, enter_of_no_directory here]
    | true =>
      cases idle : Path.isIdle piece with
      | true =>
        rw [List.filter_cons_of_neg (by simp [idle]), ih, enter, here, idle]
        rfl
      | false =>
        rw [List.filter_cons_of_pos (by simp [idle])]
        simp only [enter, here, idle, ih]

/-- Where more directories are, one gets no less far. -/
theorem enter_mono {directories more : Location → Bool}
    (grown : ∀ l, directories l = true → more l = true) {l place : Location} {pieces : List Text}
    (h : enter directories l pieces = some place) : enter more l pieces = some place := by
  induction pieces generalizing l with
  | nil =>
    rw [enter] at h ⊢
    split at h
    · rename_i here
      rw [if_pos (grown l here)]
      exact h
    · cases h
  | cons piece pieces ih =>
    cases here : directories l with
    | false =>
      rw [enter_of_no_directory here] at h
      cases h
    | true =>
      simp only [enter, here, grown l here, Bool.not_true, Bool.false_eq_true, if_false] at h ⊢
      by_cases idle : Path.isIdle piece = true
      · rw [if_pos idle] at h ⊢
        exact ih h
      by_cases up : (piece == "..".toList) = true
      · rw [if_neg idle, if_pos up] at h ⊢
        exact ih h
      by_cases long : isTooLong piece = true
      · rw [if_neg idle, if_neg up, if_pos long] at h
        cases h
      rw [if_neg idle, if_neg up, if_neg long] at h ⊢
      exact ih h

def directoryAt? (fs : FileSystem) (p : Path) : Option Location :=
  match refusal? p with
  | some _ => none
  | none => enter fs.holdsDirectory [] ((fs.start p).reverse ++ p.pieces)

/-- A path leads to the directory under its last name, if the pieces before lead to where it is. -/
theorem directoryAt?_of_name {fs : FileSystem} {p : Path} {name : Text} {above : List Text}
    {l : Location} (accepted : refusal? p = none)
    (pieces : p.pieces.reverse.dropWhile List.isEmpty = name :: above)
    (way : enter fs.holdsDirectory [] ((fs.start p).reverse ++ above.reverse) = some l)
    (idle : Path.isIdle name = false) (up : (name == "..".toList) = false)
    (short : isTooLong name = false) (outer : fs.holdsDirectory l = true)
    (inner : fs.holdsDirectory (name :: l) = true) :
    fs.directoryAt? p = some (name :: l) := by
  have split := List.takeWhile_append_dropWhile (p := List.isEmpty) (l := p.pieces.reverse)
  rw [pieces] at split
  generalize slashes : p.pieces.reverse.takeWhile List.isEmpty = empties at split
  have whole : p.pieces = above.reverse ++ name :: empties.reverse := by
    simpa using (List.reverse_eq_iff.1 split.symm)
  have nothing : ∀ x ∈ empties.reverse, Path.isIdle x = true := by
    intro x within
    rw [List.mem_reverse, ← slashes] at within
    rw [Path.isIdle, List.all_eq_true.1 List.all_takeWhile x within, Bool.true_or]
  rw [directoryAt?, accepted]
  dsimp only
  rw [whole, ← List.append_assoc, enter_append, way, Option.bind_some,
    enter_name outer idle up short, ← enter_filter, Path.filter_of_idle nothing, enter,
    if_pos inner]

theorem isDirectory_eq (fs : FileSystem) (p : Path) :
    fs.isDirectory p = (fs.directoryAt? p).isSome := by
  rw [isDirectory, find, locate, directoryAt?]
  cases refusal? p with
  | some e => rfl
  | none =>
    have way := location_walk (show Trail.LiesIn fs.root [] from trivial)
      ((fs.start p).reverse ++ p.pieces)
    rw [walk_append] at way
    dsimp only
    rw [← show Trail.location [] = [] from rfl, ← way, follow]
    cases fs.walk [] ((fs.start p).reverse ++ p.pieces) with
    | error e => rfl
    | ok t =>
      cases found : t.entry fs.root <;>
        simp [Except.map, walk, step, found, Entry.node, Path.isIdle, Except.toOption]

/-- Nothing that was there is different, and what is new are directories to which paths of one kind
lead. -/
structure Makes (which : Path → Prop) (before after : FileSystem) : Prop where
  home : after.home = before.home
  kept : ∀ l node, before.node? l = some node → after.node? l = some node
  new : ∀ l, before.node? l = none → after.node? l ≠ none →
    after.node? l = some .directory ∧ ∃ q, which q ∧ after.directoryAt? q = some l

variable {which : Path → Prop} {before between after fs : FileSystem}

theorem Makes.refl (which : Path → Prop) (fs : FileSystem) : Makes which fs fs :=
  ⟨rfl, fun _ _ => id, fun _ none other => absurd none other⟩

theorem Makes.holdsDirectory (h : Makes which before after) (l : Location)
    (there : before.holdsDirectory l = true) : after.holdsDirectory l = true :=
  decide_eq_true (h.kept l .directory (of_decide_eq_true there))

theorem Makes.directoryAt? (h : Makes which before after) {p : Path} {l : Location}
    (leads : before.directoryAt? p = some l) : after.directoryAt? p = some l := by
  unfold FileSystem.directoryAt? at leads ⊢
  cases accepted : refusal? p with
  | some e =>
    rw [accepted] at leads
    cases leads
  | none =>
    rw [accepted] at leads
    rw [start, h.home]
    exact enter_mono h.holdsDirectory leads

theorem Makes.isDirectory (h : Makes which before after) {p : Path}
    (there : before.isDirectory p = true) : after.isDirectory p = true := by
  rw [isDirectory_eq] at there ⊢
  obtain ⟨l, leads⟩ := Option.isSome_iff_exists.1 there
  rw [h.directoryAt? leads]
  rfl

theorem Makes.trans (first : Makes which before between) (second : Makes which between after) :
    Makes which before after where
  home := second.home.trans first.home
  kept l node found := second.kept l node (first.kept l node found)
  new l absent present := by
    cases middle : between.node? l with
    | none => exact second.new l middle present
    | some node =>
      obtain ⟨made, q, chosen, leads⟩ := first.new l absent (by simp [middle])
      exact ⟨second.kept l .directory made, q, chosen, second.directoryAt? leads⟩

theorem Makes.mono {other : Path → Prop} (h : Makes which before after)
    (wider : ∀ q, which q → other q) : Makes other before after where
  home := h.home
  kept := h.kept
  new l absent present := by
    obtain ⟨made, q, chosen, leads⟩ := h.new l absent present
    exact ⟨made, q, wider q chosen, leads⟩

theorem makeDirectory_eq_ok {p : Path} (h : fs.makeDirectory p = .ok after) :
    ∃ directory name slash, fs.target p = .ok (.child directory name slash) ∧
      isTooLong name = false ∧ fs.node? (name :: directory.location) = none ∧
      after = fs.putNode (name :: directory.location) .directory := by
  unfold makeDirectory at h
  split at h
  · cases h
  · cases h
  · rename_i directory name slash aim
    dsimp only at h
    split at h
    · cases h
    · rename_i short
      split at h
      · cases h
      · rename_i free
        exact ⟨directory, name, slash, aim, Bool.eq_false_iff.2 short, by simpa using free,
          (Except.ok.inj h).symm⟩

/-- A directory that is made is where its path leads, and is all that is new. -/
theorem makes_makeDirectory {p : Path} (h : fs.makeDirectory p = .ok after) :
    Makes (· = p) fs after ∧ after.isDirectory p = true := by
  obtain ⟨directory, name, slash, aim, short, free, rfl⟩ := makeDirectory_eq_ok h
  obtain ⟨above, pieces, accepted, way, idle, up, -⟩ := target_eq_child aim
  generalize made : fs.putNode (name :: directory.location) .directory = after
  have found : ∀ l, after.node? l =
      if name :: directory.location = l then some .directory else fs.node? l := by
    rw [← made]
    exact node?_putNode fs name directory.location .directory (node?_of_target aim) (by simp [free])
  have kept : ∀ l node, fs.node? l = some node → after.node? l = some node := by
    intro l node there
    rw [found, if_neg (by rintro rfl; simp [free] at there)]
    exact there
  have leads : after.directoryAt? p = some (name :: directory.location) := by
    have start_same : after.start p = fs.start p := by rw [← made]; rfl
    apply directoryAt?_of_name accepted pieces _ idle up short
    · exact decide_eq_true (kept _ _ (node?_of_target aim))
    · exact decide_eq_true (by rw [found, if_pos rfl])
    · rw [start_same]
      exact enter_mono (fun l there => decide_eq_true (kept l _ (of_decide_eq_true there)))
        (enter_of_follow way)
  refine ⟨⟨?_, kept, fun l absent present => ?_⟩, by rw [isDirectory_eq, leads]; rfl⟩
  · rw [← made]
    rfl
  rw [found] at present ⊢
  split at present
  · rename_i place
    rw [if_pos place]
    exact ⟨rfl, p, rfl, place ▸ leads⟩
  · exact absurd absent present

/-- A directory is as good as made when it is there. -/
theorem makes_settled (fs : FileSystem) (p : Path) :
    Makes (· = p) fs (fs.settled p (fs.makeDirectory p)).1 ∧
      ((fs.settled p (fs.makeDirectory p)).2 = .ok () →
        (fs.settled p (fs.makeDirectory p)).1.isDirectory p = true) := by
  cases result : fs.makeDirectory p with
  | ok made =>
    obtain ⟨makes, there⟩ := makes_makeDirectory result
    exact ⟨makes, fun _ => there⟩
  | error e =>
    refine ⟨.refl _ fs, fun ok => ?_⟩
    rw [settled] at ok ⊢
    dsimp only at ok ⊢
    split at ok
    · assumption
    · cases ok

/-- Whatever comes of it, nothing is made but the directories asked for; and if all goes well, the
first of them is there. -/
theorem makes_makeAll (fs : FileSystem) (anchor : Text) (stems : List Path.Stem) :
    Makes (fun q => ∃ stem ∈ stems, q = Path.ofStem anchor stem) fs (fs.makeAll anchor stems).1 ∧
      ((fs.makeAll anchor stems).2 = .ok () → ∀ stem ∈ stems.head?,
        (fs.makeAll anchor stems).1.isDirectory (Path.ofStem anchor stem) = true) := by
  induction stems generalizing fs with
  | nil => exact ⟨.refl _ fs, fun _ _ none => by cases none⟩
  | cons stem above ih =>
    have own {q : Path} (same : q = Path.ofStem anchor stem) :
        ∃ s ∈ stem :: above, q = Path.ofStem anchor s := ⟨stem, List.mem_cons_self, same⟩
    have first {made : FileSystem} (there : made.isDirectory (Path.ofStem anchor stem) = true) :
        ∀ s ∈ (stem :: above).head?, made.isDirectory (Path.ofStem anchor s) = true := by
      intro s head
      obtain rfl := Option.some.inj head
      exact there
    rw [makeAll]
    split
    -- Something above is missing: what is above is made first, and then this one is tried again.
    · obtain ⟨makes_above, -⟩ := ih fs
      have deeper : Makes (fun q => ∃ s ∈ stem :: above, q = Path.ofStem anchor s) fs
          (fs.makeAll anchor above).1 :=
        makes_above.mono fun q ⟨s, within, same⟩ => ⟨s, List.mem_cons_of_mem stem within, same⟩
      split
      · rename_i made all
        rw [all] at deeper
        obtain ⟨makes, there⟩ := makes_settled made (Path.ofStem anchor stem)
        exact ⟨deeper.trans (makes.mono fun _ => own), fun ok => first (there ok)⟩
      · rename_i failed
        refine ⟨deeper, fun ok => ?_⟩
        exact (failed _ (Prod.ext rfl ok)).elim
    · obtain ⟨makes, there⟩ := makes_settled fs (Path.ofStem anchor stem)
      exact ⟨makes.mono fun _ => own, fun ok => first (there ok)⟩

end Phrasebook.FileSystem

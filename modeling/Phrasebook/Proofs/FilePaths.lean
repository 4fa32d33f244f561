import Phrasebook.Proofs.FileFrame

namespace Phrasebook.FileSystem

def holdsDirectory (fs : FileSystem) (l : Location) : Bool := decide (fs.node? l = some .directory)

/-- Where some pieces lead from a location, if they lead through directories to a directory. -/
def enter (directories : Location → Bool) (l : Location) : List Text → Option Location
  | [] => if directories l then some l else none
  | piece :: pieces =>
    if !directories l then none
    else if Path.isIdle piece then enter directories l pieces
    else if piece == "..".toList then enter directories l.tail pieces
    else if isTooLong piece then none
    else enter directories (piece :: l) pieces

theorem enter_of_no_directory {directories : Location → Bool} {l : Location}
    (h : directories l = false) (pieces : List Text) : enter directories l pieces = none := by
  cases pieces <;> simp [enter, h]

theorem holdsDirectory_location {fs : FileSystem} {t : Trail} (h : t.LiesIn fs.root) :
    fs.holdsDirectory t.location =
      match t.entry fs.root with
      | .directory _ => true
      | .file _ => false := by
  rw [holdsDirectory, node?, Tree.node?, Trail.at?_location h]
  cases t.entry fs.root <;> simp [Entry.node]

theorem node?_under {fs : FileSystem} {t : Trail} (h : t.LiesIn fs.root) {inside : Tree}
    (found : t.entry fs.root = .directory inside) (name : Text) :
    fs.node? (name :: t.location) = (inside.find? name).map Entry.node := by
  rw [node?, Tree.node?, List.reverse_cons, Tree.at?_append_singleton, Trail.at?_location h, found]

/-- To walk to a directory is to enter it: of the files only the directories on the way count. -/
theorem location_walk {fs : FileSystem} {t : Trail} (h : t.LiesIn fs.root) (pieces : List Text) :
    (fs.walk t (pieces ++ [[]])).toOption.map Trail.location =
      enter fs.holdsDirectory t.location pieces := by
  induction pieces generalizing t with
  | nil =>
    rw [enter, holdsDirectory_location h]
    cases found : t.entry fs.root with
    | file content => simp [walk, step, found, Except.toOption]
    | directory inside => simp [walk, step, found, Path.isIdle, Except.toOption]
  | cons piece pieces ih =>
    rw [enter, holdsDirectory_location h]
    cases found : t.entry fs.root with
    | file content => simp [walk, step, found, Except.toOption]
    | directory inside =>
      have above : t.location.tail = Trail.location t.tail := by simp [Trail.location]
      simp only [List.cons_append, walk, step, found, above, Bool.not_true, Bool.false_eq_true,
        if_false]
      by_cases idle : Path.isIdle piece = true
      · simpa only [idle, if_true] using ih h
      by_cases up : (piece == "..".toList) = true
      · simpa only [idle, up, if_true, Bool.false_eq_true, if_false] using ih h.tail
      by_cases long : isTooLong piece = true
      · simp only [idle, up, long, if_true, Bool.false_eq_true, if_false, Except.toOption,
          Option.map_none]
      simp only [idle, up, long, Bool.false_eq_true, if_false]
      cases there : inside.find? piece with
      | some e => exact ih ⟨h, inside, found, there⟩
      | none =>
        have absent : fs.holdsDirectory (piece :: t.location) = false := by
          simp [holdsDirectory, node?_under h found, there]
        rw [enter_of_no_directory absent]
        rfl

/-- To follow pieces to a directory is to enter it from where the path begins. -/
theorem location_follow (fs : FileSystem) (p : Path) (pieces : List Text) :
    (fs.follow p (pieces ++ [[]])).toOption.map Trail.location =
      enter fs.holdsDirectory [] ((fs.start p).reverse ++ pieces) := by
  rw [follow, ← List.append_assoc]
  exact location_walk (t := []) trivial _

theorem enter_of_follow {fs : FileSystem} {p : Path} {pieces : List Text} {directory : Trail}
    (h : fs.follow p (pieces ++ [[]]) = .ok directory) :
    enter fs.holdsDirectory [] ((fs.start p).reverse ++ pieces) = some directory.location := by
  rw [← location_follow, h]
  rfl

/-- The location of a file is its name in the directory that the rest of its path leads to. -/
theorem fileAt?_eq (fs : FileSystem) (p : Path) :
    fs.fileAt? p =
      match refusal? p, p.pieces.reverse.dropWhile List.isEmpty with
      | none, last :: above =>
        if Path.isIdle last || last == "..".toList || p.getLast? == some '/' then none
        else (enter fs.holdsDirectory [] ((fs.start p).reverse ++ above.reverse)).map (last :: ·)
      | _, _ => none := by
  unfold fileAt? target
  cases refusal? p with
  | some e => rfl
  | none =>
    cases p.pieces.reverse.dropWhile List.isEmpty with
    | nil => rfl
    | cons last above =>
      dsimp only
      rw [← location_follow]
      cases fs.follow p (above.reverse ++ [[]]) with
      | error e => simp [Except.toOption]
      | ok t =>
        cases Path.isIdle last || last == "..".toList <;> cases p.getLast? == some '/' <;> rfl

/-- The location of a file is a matter of the directories that there are. -/
theorem fileAt?_congr {fs other : FileSystem} (home : other.home = fs.home)
    (directories : other.holdsDirectory = fs.holdsDirectory) (p : Path) :
    other.fileAt? p = fs.fileAt? p := by
  simp only [fileAt?_eq, start, home, directories]

theorem SameBut.holdsDirectory {file? : Option Location} {before after : FileSystem}
    (h : SameBut file? before after) : after.holdsDirectory = before.holdsDirectory := by
  funext l
  by_cases place : file? = some l
  · rcases h.file l place with same | ⟨free, content, written⟩
    · rw [FileSystem.holdsDirectory, FileSystem.holdsDirectory, same]
    · simp [FileSystem.holdsDirectory, written, free]
  · rw [FileSystem.holdsDirectory, FileSystem.holdsDirectory, h.elsewhere l place]

theorem SameBut.fileAt?_eq {file? : Option Location} {before after : FileSystem}
    (h : SameBut file? before after) (p : Path) : after.fileAt? p = before.fileAt? p :=
  fileAt?_congr h.home h.holdsDirectory p

/-- Unless a path ends in a slash, its pieces are those above its last name, and then the name. -/
theorem pieces_eq_concat {p : Path} {name : Text} {above : List Text}
    (filled : p ≠ []) (unslashed : p.getLast? ≠ some '/')
    (h : p.pieces.reverse.dropWhile List.isEmpty = name :: above) :
    p.pieces = above.reverse ++ [name] := by
  have joined : Text.joined ['/'] p.pieces = p := List.intercalate_splitOn '/'
  rcases List.eq_nil_or_concat p.pieces with none | ⟨before, last, pieces⟩
  · simp [none] at h
  · rw [List.concat_eq_append] at pieces
    rw [pieces] at h joined ⊢
    cases last with
    | nil =>
      cases before with
      | nil => exact absurd joined.symm filled
      | cons first before =>
        rw [Text.joined_append _ (List.cons_ne_nil first before) (List.cons_ne_nil [] []),
          show Text.joined ['/'] [[]] = [] from rfl, List.append_nil] at joined
        exact absurd (by rw [← joined, List.getLast?_concat]) unslashed
    | cons c last =>
      obtain ⟨rfl, rfl⟩ : c :: last = name ∧ before.reverse = above := by simpa using h
      rw [List.reverse_reverse]

theorem read_of_fileAt? {fs : FileSystem} {p : Path} {name : Text} {directory : Location}
    {content : Bytes} (place : fs.fileAt? p = some (name :: directory))
    (short : isTooLong name = false)
    (stored : fs.node? (name :: directory) = some (.file content)) :
    fs.read p = .ok content := by
  unfold fileAt? at place
  split at place
  · rename_i t last aim
    obtain ⟨rfl, rfl⟩ := List.cons.inj (Option.some.inj place)
    obtain ⟨above, pieces, accepted, way, idle, up, plain⟩ := target_eq_child aim
    have filled : p ≠ [] := by
      rintro rfl
      cases accepted
    have whole := pieces_eq_concat filled (by simpa using plain.symm) pieces
    rw [follow, ← List.append_assoc] at way
    have lies := walk_liesIn (t := []) trivial way
    obtain ⟨reached, inside, found⟩ := walk_to_directory way
    rw [node?_under lies found] at stored
    obtain ⟨e, there, is⟩ := Option.map_eq_some_iff.1 stored
    have located : fs.locate p = .ok ((last, e) :: t) := by
      rw [locate, accepted]
      dsimp only
      rw [follow, whole, ← List.append_assoc, walk_append, reached]
      simp only [walk, step, found, idle, up, short, there, Bool.false_eq_true, if_false]
    rw [read, find, located]
    simp [Except.map, Trail.entry, is]
  · cases place

theorem read_of_write {fs after : FileSystem} {p : Path} {content : Bytes}
    (h : fs.write p content = .ok after) : after.read p = .ok content := by
  obtain ⟨name, directory, place, short, -⟩ := fileAt?_of_write h
  apply read_of_fileAt? (((sameBut_write h).fileAt?_eq p).trans place) short
  rw [node?_write h, if_pos place]

end Phrasebook.FileSystem

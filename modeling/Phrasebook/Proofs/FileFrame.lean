import Phrasebook.FileSystem

namespace Phrasebook.FileSystem

/-- The location of the file that a path names, whether the file is there or not. -/
def fileAt? (fs : FileSystem) (p : Path) : Option Location :=
  match fs.target p with
  | .ok (.child directory name false) => some (name :: directory.location)
  | _ => none

/-- Nothing is different but one file, if that: it may be new or have another content, but is no
directory, before or after. -/
structure SameBut (file? : Option Location) (before after : FileSystem) : Prop where
  home : after.home = before.home
  elsewhere : ∀ l, file? ≠ some l → after.node? l = before.node? l
  file : ∀ l, file? = some l → after.node? l = before.node? l ∨
    before.node? l ≠ some .directory ∧ ∃ content, after.node? l = some (.file content)

theorem SameBut.refl (file? : Option Location) (fs : FileSystem) : SameBut file? fs fs :=
  ⟨rfl, fun _ _ => rfl, fun _ _ => .inl rfl⟩

theorem walk_append (fs : FileSystem) (t : Trail) (pieces later : List Text) :
    fs.walk t (pieces ++ later) =
      match fs.walk t pieces with
      | .ok u => fs.walk u later
      | .error e => .error e := by
  induction pieces generalizing t with
  | nil => rfl
  | cons piece pieces ih =>
    simp only [List.cons_append, walk]
    cases fs.step t piece with
    | error e => rfl
    | ok next => exact ih next

/-- An empty piece at the end asks for a directory, and leads no further. -/
theorem walk_to_directory {fs : FileSystem} {t u : Trail} {pieces : List Text}
    (h : fs.walk t (pieces ++ [[]]) = .ok u) :
    fs.walk t pieces = .ok u ∧ ∃ inside, u.entry fs.root = .directory inside := by
  rw [walk_append] at h
  cases way : fs.walk t pieces with
  | error e =>
    rw [way] at h
    cases h
  | ok place =>
    rw [way] at h
    cases found : place.entry fs.root with
    | file content => simp [walk, step, found] at h
    | directory inside =>
      obtain rfl : place = u := by simpa [walk, step, found, Path.isIdle] using h
      exact ⟨rfl, inside, found⟩

/-- What is to be made under a path is a name, and the rest of the path leads to its directory. -/
theorem target_eq_child {fs : FileSystem} {p : Path} {directory : Trail} {name : Text}
    {slash : Bool} (h : fs.target p = .ok (.child directory name slash)) :
    ∃ above, p.pieces.reverse.dropWhile List.isEmpty = name :: above ∧ refusal? p = none ∧
      fs.follow p (above.reverse ++ [[]]) = .ok directory ∧
      Path.isIdle name = false ∧ (name == "..".toList) = false ∧
      slash = (p.getLast? == some '/') := by
  unfold target at h
  split at h
  · cases h
  · rename_i accepted
    split at h
    · cases h
    · rename_i last above pieces
      split at h
      · cases h
      · rename_i way
        split at h
        · cases h
        · rename_i named
          obtain ⟨rfl, rfl, rfl⟩ := Target.child.inj (Except.ok.inj h)
          obtain ⟨idle, up⟩ := Bool.or_eq_false_iff.1 (Bool.eq_false_iff.2 named)
          exact ⟨above, pieces, accepted, way, idle, up, rfl⟩

/-- What is to be made under a path stands in a directory that is there. -/
theorem node?_of_target {fs : FileSystem} {p : Path} {directory : Trail} {name : Text}
    {slash : Bool} (h : fs.target p = .ok (.child directory name slash)) :
    fs.node? directory.location = some .directory := by
  obtain ⟨above, -, -, way, -⟩ := target_eq_child h
  rw [follow, ← List.append_assoc] at way
  have lies := walk_liesIn (t := []) trivial way
  obtain ⟨-, inside, found⟩ := walk_to_directory way
  rw [node?, Tree.node?, Trail.at?_location lies, found]
  rfl

theorem write_eq_ok {fs after : FileSystem} {p : Path} {content : Bytes}
    (h : fs.write p content = .ok after) :
    ∃ directory name, fs.target p = .ok (.child directory name false) ∧ isTooLong name = false ∧
      fs.node? (name :: directory.location) ≠ some .directory ∧
      after = fs.putNode (name :: directory.location) (.file content) := by
  unfold write at h
  split at h
  · cases h
  · cases h
  · rename_i directory name slash aim
    dsimp only at h
    split at h
    · cases h
    · rename_i plain
      split at h
      · cases h
      · rename_i short
        split at h
        · cases h
        · rename_i free
          obtain rfl : slash = false := Bool.eq_false_iff.2 plain
          exact ⟨directory, name, aim, Bool.eq_false_iff.2 short, free, (Except.ok.inj h).symm⟩

/-- What is found after a write: the content at the location of the file, and elsewhere what was
found before. -/
theorem node?_write {fs after : FileSystem} {p : Path} {content : Bytes}
    (h : fs.write p content = .ok after) (l : Location) :
    after.node? l = if fs.fileAt? p = some l then some (.file content) else fs.node? l := by
  obtain ⟨directory, name, aim, -, free, rfl⟩ := write_eq_ok h
  have place : fs.fileAt? p = some (name :: directory.location) := by
    simp only [fileAt?, aim]
  rw [node?_putNode fs name directory.location (.file content) (node?_of_target aim) free, place]
  simp only [Option.some.injEq]

theorem fileAt?_of_write {fs after : FileSystem} {p : Path} {content : Bytes}
    (h : fs.write p content = .ok after) :
    ∃ name directory, fs.fileAt? p = some (name :: directory) ∧ isTooLong name = false ∧
      fs.node? (name :: directory) ≠ some .directory := by
  obtain ⟨directory, name, aim, short, free, -⟩ := write_eq_ok h
  exact ⟨name, directory.location, by simp only [fileAt?, aim], short, free⟩

theorem sameBut_write {fs after : FileSystem} {p : Path} {content : Bytes}
    (h : fs.write p content = .ok after) : SameBut (fs.fileAt? p) fs after := by
  refine ⟨?_, fun l other => ?_, fun l same => ?_⟩
  · obtain ⟨_, _, _, _, _, rfl⟩ := write_eq_ok h
    rfl
  · rw [node?_write h, if_neg other]
  · obtain ⟨name, directory, place, -, free⟩ := fileAt?_of_write h
    obtain rfl := Option.some.inj (place.symm.trans same)
    exact .inr ⟨free, content, by rw [node?_write h, if_pos same]⟩

end Phrasebook.FileSystem

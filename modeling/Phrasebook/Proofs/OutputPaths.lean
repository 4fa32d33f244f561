import Phrasebook.PathCheck
import Phrasebook.Proofs.Directories

/-!
# Output paths that pass their check

The check of an output makes directories above it and changes nothing else, whatever it comes to
(`makes_checkOutput`). A path that passes is no directory, and a file can be written under it
exactly if the path ends in a name and what stands above it is no file
(`accepted_output_written_iff`). The check itself looks only for something above, so a file there
lets it pass: `output_below_file`.
-/

namespace Phrasebook

namespace FileSystem

/-- A path that ends in the name of a file, with no more bytes than names and paths can have. -/
def NamesFile (p : Path) : Prop :=
  refusal? p = none ∧ ∃ name, p.fileName? = some name ∧ isTooLong name = false

theorem refusal?_of_isPrefix {d p : Path} (accepted : refusal? p = none) (within : d <+: p)
    (filled : d ≠ []) : refusal? d = none := by
  obtain ⟨more, rfl⟩ := within
  have bytes : (Utf8.encode (d ++ more)).length =
      (Utf8.encode d).length + (Utf8.encode more).length := by
    rw [Utf8.encode, List.flatMap_append, List.length_append, Utf8.encode, Utf8.encode]
  have text : d.isEmpty = false := by simpa using filled
  unfold refusal? at accepted ⊢
  split at accepted
  · cases accepted
  · rename_i plain
    split at accepted
    · cases accepted
    · split at accepted
      · cases accepted
      · rename_i short
        rw [List.any_append, Bool.or_eq_true, not_or] at plain
        rw [if_neg plain.1, text, if_neg Bool.false_ne_true, if_neg (by omega)]

/-- The pieces before its name lead where the parent of a path leads. -/
theorem enter_parent (fs : FileSystem) {p d : Path} {above : List Text} {name : Text}
    (whole : p.pieces = above ++ [name]) (idle : Path.isIdle name = false)
    (parent : p.parent? = some d) :
    enter fs.holdsDirectory [] ((fs.start p).reverse ++ above) =
        enter fs.holdsDirectory [] ((fs.start d).reverse ++ d.pieces) ∧ d <+: p := by
  have named : p.names = above.filter (!Path.isIdle ·) ++ [name] := by
    rw [Path.names, whole, List.filter_append, List.filter_cons_of_pos (by simp [idle])]
    rfl
  obtain ⟨d', last, parent', names, start_same, within⟩ :=
    Path.exists_parent (p := p) (by simp [named])
  obtain rfl : d' = d := Option.some.inj (parent'.symm.trans parent)
  refine ⟨?_, within⟩
  obtain ⟨same, -⟩ := List.append_inj' (named.symm.trans names) rfl
  rw [← enter_filter, ← enter_filter _ _ (_ ++ d'.pieces), List.filter_append, same, Path.names,
    List.filter_append, start, start, start_same]

/-- There is a way along the pieces before its name exactly if the parent of a path, when it has a
text, is a directory. -/
theorem exists_way_iff {fs : FileSystem} (standing : fs.isDirectory ['.'] = true) {p d : Path}
    {above : List Text} {name : Text} (accepted : refusal? p = none)
    (whole : p.pieces = above ++ [name]) (idle : Path.isIdle name = false)
    (parent : p.parent? = some d) :
    (∃ l, enter fs.holdsDirectory [] ((fs.start p).reverse ++ above) = some l) ↔
      (d ≠ [] → fs.isDirectory d = true) := by
  obtain ⟨way, within⟩ := enter_parent fs whole idle parent
  rw [way, ← Option.isSome_iff_exists]
  by_cases filled : d = []
  · subst filled
    -- The empty parent stands for the working directory, and so does a dot.
    refine iff_of_true ?_ (absurd rfl)
    have dot : fs.directoryAt? ['.'] =
        enter fs.holdsDirectory [] ((fs.start []).reverse ++ [['.']]) := rfl
    rw [isDirectory_eq, dot] at standing
    rw [← enter_filter, List.filter_append] at standing ⊢
    exact standing
  · rw [isDirectory_eq, directoryAt?, refusal?_of_isPrefix accepted within filled]
    exact ⟨fun leads _ => leads, fun leads => leads filled⟩

/-- Something can be made under a name in the directory that the pieces before it lead to. -/
theorem target_of_name {fs : FileSystem} {p : Path} {above : List Text} {name : Text} {l : Location}
    (accepted : refusal? p = none) (whole : p.pieces = above ++ [name])
    (idle : Path.isIdle name = false) (up : (name == "..".toList) = false)
    (way : enter fs.holdsDirectory [] ((fs.start p).reverse ++ above) = some l) :
    ∃ directory, fs.target p = .ok (.child directory name false) ∧ directory.location = l := by
  have slash : (p.getLast? == some '/') = false :=
    beq_eq_false_iff_ne.2 (Path.getLast?_ne_slash whole idle)
  rw [target, accepted, Path.dropWhile_pieces whole idle]
  dsimp only
  rw [List.reverse_reverse, idle, up, slash]
  rw [← location_follow] at way
  cases followed : fs.follow p (above ++ [[]]) with
  | error e =>
    rw [followed] at way
    cases way
  | ok directory =>
    rw [followed] at way
    exact ⟨directory, rfl, Option.some.inj way⟩

/-- Where no directory is, a file can be written exactly if its path ends in a name and the parent,
when it has a text, is a directory. -/
theorem exists_write_iff {fs : FileSystem} (standing : fs.isDirectory ['.'] = true) {p : Path}
    (free : fs.isDirectory p = false) (content : Bytes) :
    (∃ done, fs.write p content = .ok done) ↔
      NamesFile p ∧ ∀ d, p.parent? = some d → d ≠ [] → fs.isDirectory d = true := by
  constructor
  · rintro ⟨done, written⟩
    obtain ⟨directory, name, aim, short, -⟩ := write_eq_ok written
    obtain ⟨above, pieces, accepted, way, idle, up, plain⟩ := target_eq_child aim
    have filled : p ≠ [] := by
      rintro rfl
      cases accepted
    have whole := pieces_eq_concat filled (by simpa using plain.symm) pieces
    refine ⟨⟨accepted, name, ?_, short⟩, fun d parent => ?_⟩
    · exact Path.fileName?_eq_some.2 ⟨above.reverse, whole, idle, up⟩
    · rw [← exists_way_iff standing accepted whole idle parent]
      exact ⟨_, enter_of_follow way⟩
  · rintro ⟨⟨accepted, name, last, short⟩, above_there⟩
    obtain ⟨above, whole, idle, up⟩ := Path.fileName?_eq_some.1 last
    obtain ⟨d, -, parent, -⟩ := Path.exists_parent (p := p)
      (by simp [Path.names, whole, idle])
    obtain ⟨l, way⟩ := (exists_way_iff standing accepted whole idle parent).2
      (above_there d parent)
    obtain ⟨directory, aim, rfl⟩ := target_of_name accepted whole idle up way
    have open_place : fs.node? (name :: directory.location) ≠ some .directory := by
      intro taken
      have leads := directoryAt?_of_name accepted (Path.dropWhile_pieces whole idle)
        (by rw [List.reverse_reverse]; exact way) idle up short
        (decide_eq_true (node?_of_target aim)) (decide_eq_true taken)
      rw [isDirectory_eq, leads] at free
      cases free
    refine ⟨fs.putNode (name :: directory.location) (.file content), ?_⟩
    rw [write, aim]
    dsimp only
    rw [if_neg Bool.false_ne_true, short, if_neg Bool.false_ne_true, if_neg open_place]

/-- Making directories leads to the last of them, and makes only that one and what is above it. -/
theorem makes_makeDirectories (fs : FileSystem) {d : Path} {next : Path.Stem}
    {later : List Path.Stem} (stems : d.stems = next :: later)
    (whole : d = Path.ofStem d.anchor next) :
    Makes (fun q => q = d ∨ q.IsAbove d) fs (fs.makeDirectories d).1 ∧
      ((fs.makeDirectories d).2 = .ok () → (fs.makeDirectories d).1.isDirectory d = true) := by
  obtain ⟨makes, there⟩ := makes_makeAll fs d.anchor d.stems
  refine ⟨makes.mono ?_, fun ok => ?_⟩
  · rintro q ⟨stem, within, rfl⟩
    rw [stems] at within
    rcases List.mem_cons.1 within with rfl | within
    · exact .inl whole.symm
    · exact .inr (Path.isAbove_of_stem (by rw [stems]; exact within))
  · have first := there ok next (by rw [stems]; rfl)
    rw [← whole] at first
    exact first

/-- What is there is a directory or a file. -/
theorem pathExists_eq (fs : FileSystem) (d : Path) :
    fs.pathExists d = (fs.isDirectory d || fs.isFile d) := by
  unfold pathExists isDirectory isFile
  cases fs.find d with
  | error e => rfl
  | ok node => cases node <;> rfl

theorem isFile_of_isDirectory {fs : FileSystem} {d : Path} (h : fs.isDirectory d = true) :
    fs.isFile d = false := by
  unfold isDirectory at h
  unfold isFile
  split at h
  · rename_i found
    rw [found]
  · cases h

theorem isDirectory_root (fs : FileSystem) : fs.isDirectory ['/'] = true := rfl

/-- The parent that is made for an output has a name: the root and the working directory are always
there. -/
theorem exists_stem_of_missing {fs : FileSystem} (standing : fs.isDirectory ['.'] = true)
    {p d : Path} (missing : fs.missingParent? p = some d) :
    p.parent? = some d ∧ fs.isFile d = false ∧
      ∃ next later, d.stems = next :: later ∧ d = Path.ofStem d.anchor next := by
  obtain ⟨parent, gone⟩ := Option.filter_eq_some_iff.1 missing
  obtain ⟨text, absent⟩ : d ≠ [] ∧ fs.pathExists d = false := by simpa using gone
  obtain ⟨no_directory, no_file⟩ := Bool.or_eq_false_iff.1 ((fs.pathExists_eq d).symm.trans absent)
  refine ⟨parent, no_file, ?_⟩
  rcases Path.parent?_cases parent text with rfl | rfl | named
  · rw [isDirectory_root] at no_directory
    cases no_directory
  · rw [standing] at no_directory
    cases no_directory
  · exact named

/-- The check makes directories above the path and nothing else, whatever it comes to. After a path
has passed, it is no directory, and its parent is one unless it is a file. -/
theorem makes_checkOutput {fs : FileSystem} (standing : fs.isDirectory ['.'] = true) (p : Path) :
    Makes (Path.IsAbove · p) fs (fs.checkOutput p).1 ∧
      ((fs.checkOutput p).2 = .ok () →
        (fs.checkOutput p).1.isDirectory p = false ∧
          ∀ d, p.parent? = some d → d ≠ [] →
            ((fs.checkOutput p).1.isDirectory d = true ↔ fs.isFile d = false)) := by
  have verdict {made : FileSystem}
      (ok : (if made.isDirectory p then Except.error (PathFault.isADirectory p) else .ok ()) =
        .ok ()) : made.isDirectory p = false := by
    split at ok
    · cases ok
    · rename_i other
      exact Bool.eq_false_iff.2 other
  rw [checkOutput]
  dsimp only
  cases missing : fs.missingParent? p with
  | none =>
    refine ⟨.refl _ fs, fun ok => ⟨verdict ok, fun d parent filled => ?_⟩⟩
    have there : fs.pathExists d = true := by
      simpa [filled] using Option.filter_eq_none_iff.1 missing d parent
    rw [pathExists_eq, Bool.or_eq_true] at there
    constructor
    · intro directory
      exact isFile_of_isDirectory directory
    · intro no_file
      exact there.resolve_right (by simp [no_file])
  | some d =>
    obtain ⟨parent, no_file, next, later, stems, whole⟩ := exists_stem_of_missing standing missing
    obtain ⟨makes, there⟩ := makes_makeDirectories fs stems whole
    have above : Makes (Path.IsAbove · p) fs (fs.makeDirectories d).1 := by
      apply makes.mono
      rintro q (rfl | further)
      · exact .parent parent
      · exact .further parent further
    dsimp only
    cases result : fs.makeDirectories d with
    | mk made outcome =>
      rw [result] at above there
      cases outcome with
      | error cause => exact ⟨above, fun ok => by cases ok⟩
      | ok =>
        refine ⟨above, fun ok => ⟨verdict ok, fun d' parent' _ => ?_⟩⟩
        obtain rfl : d' = d := Option.some.inj (parent'.symm.trans parent)
        exact iff_of_true (there rfl) no_file

/-- **A path that passes can be written exactly if it names a file and its parent is no file.**
Whatever the check comes to, it has made directories above the path and changed nothing else. When
the path has passed, it is no directory, and its parent, if that has a text, is a directory unless
there was a file. The working directory has to be there. -/
theorem accepted_output_written_iff {fs : FileSystem} (standing : fs.isDirectory ['.'] = true)
    (p : Path) :
    Makes (Path.IsAbove · p) fs (fs.checkOutput p).1 ∧
      ((fs.checkOutput p).2 = .ok () →
        (fs.checkOutput p).1.isDirectory p = false ∧
        (∀ d, p.parent? = some d → d ≠ [] →
          ((fs.checkOutput p).1.isDirectory d = true ↔ fs.isFile d = false)) ∧
        ∀ content, (∃ done, (fs.checkOutput p).1.write p content = .ok done) ↔
          NamesFile p ∧ ∀ d, p.parent? = some d → fs.isFile d = false) := by
  obtain ⟨makes, passed⟩ := makes_checkOutput standing p
  refine ⟨makes, fun ok => ?_⟩
  obtain ⟨free, parents⟩ := passed ok
  refine ⟨free, parents, fun content => ?_⟩
  rw [exists_write_iff (makes.isDirectory standing) free content]
  have same : (∀ d, p.parent? = some d → d ≠ [] → (fs.checkOutput p).1.isDirectory d = true) ↔
      ∀ d, p.parent? = some d → fs.isFile d = false := by
    constructor
    · intro there d parent
      by_cases filled : d = []
      · subst filled
        rfl
      · exact (parents d parent filled).1 (there d parent filled)
    · intro no_file d parent filled
      exact (parents d parent filled).2 (no_file d parent)
  rw [same]

/-- Two directories are made for a file that is then written into the second. -/
theorem accepted_output_written_iff_of_new_directories :
    let fs : FileSystem := { home := [] }
    let p : Path := "res//./values/strings.xml".toList
    (fs.checkOutput p).2 = .ok () ∧ Makes (Path.IsAbove · p) fs (fs.checkOutput p).1 ∧
      (fs.checkOutput p).1.node? ["values".toList, "res".toList] = some .directory ∧
      ∃ done, (fs.checkOutput p).1.write p [1] = .ok done := by
  intro fs p
  have ok : (fs.checkOutput p).2 = .ok () := rfl
  obtain ⟨makes, passed⟩ :=
    accepted_output_written_iff (show fs.isDirectory ['.'] = true from rfl) p
  obtain ⟨-, -, written⟩ := passed ok
  have named : NamesFile p := ⟨rfl, "strings.xml".toList, rfl, rfl⟩
  refine ⟨ok, makes, rfl, (written [1]).2 ⟨named, ?_⟩⟩
  intro d parent
  obtain rfl : "res//./values".toList = d := Option.some.inj parent
  rfl

/-- A path below a file passes the check, though its parent is then no directory. -/
theorem output_below_file :
    ¬ ∀ (fs : FileSystem) (p : Path), fs.isDirectory ['.'] = true → p ≠ [] →
      (fs.checkOutput p).2 = .ok () →
      (∀ d, p.parent? = some d → d ≠ [] → (fs.checkOutput p).1.isDirectory d = true) ∧
        (fs.checkOutput p).1.isDirectory p = false ∧
        (∀ content, ∃ done, (fs.checkOutput p).1.write p content = .ok done) ∧
        Makes (Path.IsAbove · p) fs (fs.checkOutput p).1 := by
  intro all
  let fs : FileSystem := { home := [], root := .file "f".toList [120] .empty }
  obtain ⟨parents, -⟩ := all fs "f/x".toList rfl (List.cons_ne_nil _ _) rfl
  have there : fs.isDirectory "f".toList = true := parents _ rfl (List.cons_ne_nil _ _)
  cases there

end FileSystem

end Phrasebook

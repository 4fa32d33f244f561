import Phrasebook.Command.Run
import Phrasebook.Proofs.FileFrame
import Phrasebook.Proofs.History

namespace Phrasebook

namespace Session

theorem files_compile {s : Session} {fs : FileSystem} {bytes : Bytes}
    (h : ∀ table, (s.prepare bytes).2 ≠ .ok table) : (s.compile fs bytes).2.1 = fs := by
  rw [compile_snd]
  cases made : (s.prepare bytes).2 with
  | error p => rfl
  | ok table => exact absurd made (h table)

theorem files_compileFile {s : Session} {fs : FileSystem} {path : Path}
    (h : ∀ bytes table, fs.find path = .ok (.file bytes) → (s.prepare bytes).2 ≠ .ok table) :
    (s.compileFile fs path).2.1 = fs := by
  unfold compileFile
  split
  · rename_i bytes found
    exact files_compile fun table => h bytes table found
  · rfl
  · rfl

end Session

namespace Command

open FileSystem (SameBut)

/-- The session of a request and the path of its sheet, once the project file has been read and the
platform, the input and the list of languages are found in order. -/
def CompileRequest.session? (fs : FileSystem) (r : CompileRequest) : Option (Session × Path) := do
  let project ← (Project.load fs r.project).toOption
  let platform ← (choosePlatform r.platform project.platform).toOption
  let source := r.input.getD project.source
  let _ ← (fs.checkInput source).toOption
  let s ← (Session.new platform project.languages).toOption
  let options : Options :=
    { reference := project.reference.getD "en".toList
      strictKeys := r.strictKeys
      reportMissing := r.reportMissing
      parallel := !r.sequential }
  return ({ s with options := options }, source)

/-- The table of a request, once its sheet has been opened and prepared. -/
def CompileRequest.table? (fs : FileSystem) (r : CompileRequest) : Option Table := do
  let (s, source) ← r.session? fs
  let bytes ← (fs.read source).toOption
  (s.prepare bytes).2.toOption

def Run.logging (log : List LogLine) (run : Run) : Run := { run with log := log ++ run.log }

/-- A request ends without a report before there is a session, or it comes to what its session
produces, with a report. No error is logged before that. -/
theorem compile_cases (fs : FileSystem) (r : CompileRequest) :
    (r.session? fs = none ∧ ∃ log message, compile fs r = .failed fs log message) ∨
    ∃ s source log, r.session? fs = some (s, source) ∧ (∀ line ∈ log, line.level ≠ .error) ∧
      compile fs r = writeReport r.report (produce fs s source r.dryRun).1.diagnostics
        ((produce fs s source r.dryRun).2.logging log) := by
  unfold compile CompileRequest.session?
  cases Project.load fs r.project with
  | error fault => exact .inl ⟨rfl, _, _, rfl⟩
  | ok project =>
    dsimp only [Except.toOption, Option.bind_eq_bind, Option.bind_some]
    cases choosePlatform r.platform project.platform with
    | error p => exact .inl ⟨rfl, _, _, rfl⟩
    | ok platform =>
      dsimp only [Option.bind_some]
      cases fs.checkInput (r.input.getD project.source) with
      | error fault => exact .inl ⟨rfl, _, _, rfl⟩
      | ok =>
        dsimp only [Option.bind_some]
        cases Session.new platform project.languages with
        | error p => exact .inl ⟨rfl, _, _, rfl⟩
        | ok s =>
          refine .inr ⟨_, _, _, rfl, fun line logged => ?_, rfl⟩
          rcases List.mem_append.1 logged with warned | compiling
          · obtain ⟨complaint, -, rfl⟩ := List.mem_map.1 warned
            exact Level.noConfusion
          · obtain rfl := List.mem_singleton.1 compiling
            exact Level.noConfusion

theorem produce_of_no_table {fs : FileSystem} {s : Session} {source : Path}
    (h : ∀ bytes table, fs.read source = .ok bytes → (s.prepare bytes).2 ≠ .ok table)
    (dryRun : Bool) :
    (produce fs s source dryRun).2.files = fs ∧
      (produce fs s source dryRun).2.failure.isSome := by
  unfold produce
  split
  · exact ⟨rfl, rfl⟩
  · rename_i bytes opened
    split
    · exact ⟨rfl, rfl⟩
    · rename_i made
      exact absurd (congrArg Prod.snd made) (h bytes _ opened)

theorem files_produce_dry (fs : FileSystem) (s : Session) (source : Path) :
    (produce fs s source true).2.files = fs := by
  unfold produce
  split
  · rfl
  · split
    · rfl
    · rfl

/-- A report changes the file that it is for, and never makes a failure good. -/
theorem sameBut_writeReport (path : Option Path) (ds : Diagnostics) (run : Run) :
    SameBut (path.bind run.files.fileAt?) run.files (writeReport path ds run).files := by
  cases path with
  | none => exact .refl _ _
  | some p =>
    simp only [writeReport]
    split
    · exact .refl _ _
    · rename_i written
      exact FileSystem.sameBut_write written

theorem isSome_failure_writeReport {path : Option Path} {ds : Diagnostics} {run : Run}
    (h : run.failure.isSome) : (writeReport path ds run).failure.isSome := by
  unfold writeReport
  split
  · exact h
  · split
    · rfl
    · exact h

theorem ne_ok_of_no_table {fs : FileSystem} {r : CompileRequest} {s : Session} {source : Path}
    (started : r.session? fs = some (s, source)) (h : r.table? fs = none) (bytes : Bytes)
    (table : Table) (opened : fs.read source = .ok bytes) : (s.prepare bytes).2 ≠ .ok table := by
  intro prepared
  simp [CompileRequest.table?, started, opened, prepared, Except.toOption] at h

theorem sameBut_compile {fs : FileSystem} {r : CompileRequest}
    (h : r.dryRun = true ∨ r.table? fs = none) :
    SameBut (r.report.bind fs.fileAt?) fs (compile fs r).files := by
  rcases compile_cases fs r with ⟨-, log, message, ran⟩ | ⟨s, source, log, started, -, ran⟩
  · rw [ran]
    exact .refl _ _
  · have untouched : ((produce fs s source r.dryRun).2.logging log).files = fs := by
      rcases h with dry | unmade
      · rw [dry]
        exact files_produce_dry fs s source
      · exact (produce_of_no_table (ne_ok_of_no_table started unmade) r.dryRun).1
    have reported := sameBut_writeReport r.report (produce fs s source r.dryRun).1.diagnostics
      ((produce fs s source r.dryRun).2.logging log)
    rw [untouched] at reported
    rwa [ran]

theorem isSome_failure_compile {fs : FileSystem} {r : CompileRequest} (h : r.table? fs = none) :
    (compile fs r).failure.isSome := by
  rcases compile_cases fs r with ⟨-, log, message, ran⟩ | ⟨s, source, log, started, -, ran⟩
  · rw [ran]
    rfl
  · rw [ran]
    apply isSome_failure_writeReport
    exact (produce_of_no_table (ne_ok_of_no_table started h) r.dryRun).2

theorem files_check (fs : FileSystem) (r : CheckRequest) : (check fs r).files = fs := by
  unfold check
  split
  · rfl
  · dsimp only
    split
    · rfl
    · split
      · rfl
      · split
        · rfl
        · split
          · rfl
          · rfl

/-- The files after a command line. On wrong usage no command is run. -/
def filesAfter (fs : FileSystem) (arguments : List Text) : FileSystem :=
  match Invocation.ofArguments? arguments with
  | none => fs
  | some i => (i.run fs).files

/-- **What fails early writes nothing.** A session leaves all files as they are if the sheet cannot
be opened or prepared. A command line that does not ask to compile leaves them so in any case; one
that does changes at most the file of its report if it is a dry run or fails before it has a
table. -/
theorem early_failures_write_nothing :
    (∀ (s : Session) (fs : FileSystem) (bytes : Bytes),
      (∀ table, (s.prepare bytes).2 ≠ .ok table) → (s.compile fs bytes).2.1 = fs) ∧
    (∀ (s : Session) (fs : FileSystem) (path : Path),
      (∀ bytes table, fs.find path = .ok (.file bytes) → (s.prepare bytes).2 ≠ .ok table) →
      (s.compileFile fs path).2.1 = fs) ∧
    (∀ (fs : FileSystem) (arguments : List Text),
      (∀ i r, Invocation.ofArguments? arguments = some i → i.request ≠ .compile r) →
      filesAfter fs arguments = fs) ∧
    ∀ (fs : FileSystem) (arguments : List Text) (i : Invocation) (r : CompileRequest),
      Invocation.ofArguments? arguments = some i → i.request = .compile r →
      (r.dryRun = true ∨ r.table? fs = none →
        SameBut (r.report.bind fs.fileAt?) fs (filesAfter fs arguments)) ∧
      (r.table? fs = none → (i.run fs).exitCode = 1) := by
  refine ⟨fun s fs bytes => Session.files_compile, fun s fs path => Session.files_compileFile,
    ?_, ?_⟩
  · intro fs arguments other
    unfold filesAfter
    split
    · rfl
    · rename_i i read
      cases asked : i.request with
      | compile r => exact absurd asked (other i r read)
      | check r =>
        have ran : (i.run fs).files = (check fs r).files := by
          simp only [Invocation.run, asked, Request.run]
        rw [ran, files_check]
  · intro fs arguments i r read asked
    have ran : i.request.run fs = compile fs r := by rw [asked, Request.run]
    refine ⟨fun early => ?_, fun unmade => ?_⟩
    · have files : filesAfter fs arguments = (compile fs r).files := by
        simp only [filesAfter, read, Invocation.run, ran]
      rw [files]
      exact sameBut_compile early
    · have failed := isSome_failure_compile unmade
      simp only [Invocation.run, Run.exitCode, ran, failed, if_true]

/-- Two rows with one key: the report is written, and the directory of the output is not made. -/
theorem early_failures_write_nothing_but_report :
    let sheet := Utf8.encode "key,en\nk,A\nk,B\n".toList
    let project := Utf8.encode "URL: s\nPlatform: web\nLanguage: en, out/en\n".toList
    let fs : FileSystem :=
      { home := [], root := .file "p".toList project (.file "s".toList sheet .empty) }
    let arguments := ["compile", "-c", "p", "--report-json", "r"].map String.toList
    let r : CompileRequest := { project := "p".toList, report := some "r".toList }
    ∃ s : Session,
      Session.new .web [{ id := "en".toList, destination := "out/en".toList }] = .ok s ∧
      (s.compile fs sheet).2.1 = fs ∧ (s.compileFile fs "t".toList).2.1 = fs ∧
      filesAfter fs (["check", "-i", "s", "-l", "en"].map String.toList) = fs ∧
      Invocation.ofArguments? arguments = some ⟨false, .compile r⟩ ∧ r.table? fs = none ∧
      (filesAfter fs arguments).node? ["r".toList] ≠ none ∧
      SameBut (some ["r".toList]) fs (filesAfter fs arguments) := by
  intro sheet project fs arguments r
  obtain ⟨compiled, compiledFile, checked, requested⟩ := early_failures_write_nothing
  let l : Language := { id := "en".toList, destination := "out/en".toList }
  let s : Session := { platform := .web, languages := [l] }
  have refused : (s.prepare sheet).2 = .error (.duplicateKey 2 3 "k".toList) := rfl
  have absent : fs.find "t".toList = .error .notFound := rfl
  have check : Invocation.ofArguments? (["check", "-i", "s", "-l", "en"].map String.toList) =
      some ⟨false, .check { input := "s".toList, languages := ["en".toList] }⟩ := by
    decide +kernel
  have read : Invocation.ofArguments? arguments = some ⟨false, .compile r⟩ := by decide +kernel
  have unmade : r.table? fs = none := Option.isNone_iff_eq_none.1 (by decide +kernel)
  have place : r.report.bind fs.fileAt? = some ["r".toList] := by decide +kernel
  have same := (requested fs arguments _ r read rfl).1 (.inr unmade)
  rw [place] at same
  have written : (filesAfter fs arguments).node? ["r".toList] ≠ none := by decide +kernel
  refine ⟨s, rfl, compiled s fs sheet ?_, compiledFile s fs _ ?_, checked fs _ ?_, read, unmade,
    written, same⟩
  · intro table made
    cases refused.symm.trans made
  · intro bytes table found
    cases absent.symm.trans found
  · intro i other asked compile
    obtain rfl := Option.some.inj (check.symm.trans asked)
    cases compile

end Command

end Phrasebook

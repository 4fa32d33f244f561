import Phrasebook.Proofs.EarlyFailure
import Phrasebook.Proofs.Reporting

/-!
# Failures in the log

A run can fail twice: where it opens or prepares its sheet, checks its outputs or writes its
documents, and then where it writes its report. It has only one failure to end with, so a report
that cannot be written takes the place of what went wrong before it. `failure_logged_iff` says which
failures the log tells of: those that a session has recorded always, the others if and only if the
report goes well.
-/

namespace Phrasebook

/-! ## Diagnostics among the lines of the log -/

theorem Diagnostic.logLine_level {d : Diagnostic} :
    d.logLine.level = .error ↔ d.isError = true := by
  obtain ⟨severity, _, _, _⟩ := d
  cases severity <;> simp [logLine, Severity.level, isError]

theorem Diagnostic.logLine_level_ne_debug (d : Diagnostic) : d.logLine.level ≠ .debug := by
  obtain ⟨severity, _, _, _⟩ := d
  cases severity <;> exact Level.noConfusion

theorem Diagnostic.logLine_fields {d : Diagnostic} (h : d.language ≠ none) :
    d.logLine.fields ≠ [] := by
  obtain ⟨language, named⟩ := Option.ne_none_iff_exists'.1 h
  simp [logLine, named]

namespace Command

theorem mem_logOf_of_mem {s : Session} {d : Diagnostic} (h : d ∈ s.diagnostics) :
    d.logLine ∈ logOf s := by
  obtain ⟨event, recorded, noted⟩ := List.mem_filterMap.1 h
  cases event with
  | noted d' =>
    obtain rfl := Option.some.inj noted
    exact List.mem_map.2 ⟨_, recorded, rfl⟩
  | skippedRow | builtTable | wrote | completed => cases noted

theorem exists_of_mem_logOf {s : Session} {line : LogLine} (h : line ∈ logOf s)
    (error : line.level = .error) : ∃ d ∈ s.diagnostics, d.isError = true ∧ line = d.logLine := by
  obtain ⟨event, recorded, rfl⟩ := List.mem_map.1 h
  cases event with
  | noted d => exact ⟨d, List.mem_filterMap.2 ⟨_, recorded, rfl⟩, d.logLine_level.1 error, rfl⟩
  | skippedRow | builtTable | wrote | completed => cases error

theorem mem_shownLines {verbose : Bool} {log : List LogLine} {line : LogLine}
    (plain : line.level ≠ .debug) : line ∈ shownLines verbose log ↔ line ∈ log := by
  cases verbose <;> simp [shownLines, plain]

end Command

namespace Session

theorem isError_of_prepare {s s' : Session} {bytes : Bytes} {table : Table}
    (h : s.prepare bytes = (s', .ok table)) {d : Diagnostic} (mem : d ∈ s'.diagnostics) :
    d.isError = false := by
  obtain ⟨_, _, report⟩ := s.preparationReport bytes
  rw [h] at report
  exact Bool.eq_false_iff.2 (List.filter_eq_nil_iff.1 report.errors d mem)

/-- What is recorded while documents are written names their languages. -/
theorem language_of_publish {s s' : Session} {fs fs' : FileSystem} {table : Table}
    {result : Except Problem (List Path)} (h : s.publish fs table = (s', fs', result))
    {d : Diagnostic} (mem : d ∈ s'.diagnostics) : d ∈ s.diagnostics ∨ d.language ≠ none := by
  obtain ⟨rfl, -⟩ := Prod.mk.inj h
  simp only [record, diagnostics, diagnosticsOf_append, Publication.diagnosticsOf_publish] at mem
  rcases List.mem_append.1 mem with earlier | written
  · exact .inl earlier
  · obtain ⟨t, turn, told⟩ := List.mem_flatMap.1 written
    refine .inr ?_
    rcases List.mem_append.1 told with faulty | failed
    · have listed : t.rendered ∈ s.rendered table := by
        rw [← Publication.map_rendered_turns (Format.frame s.platform) fs (s.rendered table)]
        exact List.mem_map_of_mem turn
      obtain ⟨l, -, made⟩ := List.mem_map.1 listed
      rw [← made] at faulty
      obtain ⟨c, phrase, trouble⟩ := List.mem_filterMap.1 faulty
      obtain ⟨p, -, rfl⟩ := List.mem_map.1 phrase
      simp [(Document.diagnostic?_contribution trouble).2]
    · simp [(Turn.isError_of_failure (Option.mem_toList.1 failed)).2]

theorem error_of_publish {s s' : Session} {fs fs' : FileSystem} {table : Table} {p : Problem}
    (h : s.publish fs table = (s', fs', .error p)) : ∃ failed, p = .incomplete failed := by
  obtain ⟨-, -, result⟩ : _ ∧ _ ∧ _ := by simpa only [publish, Prod.mk.injEq] using h
  rw [Publication.result] at result
  split at result
  · cases result
  · exact ⟨_, (Except.error.inj result).symm⟩

end Session

namespace Command

/-! ## Why a run fails -/

/-- Why the documents of a sheet were not made. -/
inductive StageError
  | opening (cause : SystemError)
  | preparing (p : Problem)
  | checking (language : Text) (fault : PathFault)
  | writing (p : Problem)
deriving Repr, DecidableEq

namespace StageError

def message (source : Path) : StageError → Text
  | .opening cause => openMessage source cause
  | .preparing p => p.message
  | .checking language fault =>
    "Output validation failed for ".toList ++ language ++ ": ".toList ++ fault.message
  | .writing p => p.message

/-- Whether the session has the error among its diagnostics. -/
def recorded : StageError → Bool
  | .preparing _ => true
  | _ => false

def line (source : Path) : StageError → LogLine
  | .preparing p => p.diagnostic.logLine
  | e => { level := .error, message := e.message source }

/-- What the run fails with, unless its report fails. -/
def failure (source : Path) (e : StageError) : Failure :=
  if e.recorded then .reported else .message (e.message source)

theorem line_level (source : Path) (e : StageError) : (e.line source).level = .error := by
  cases e <;> rfl

theorem line_of_not_recorded {e : StageError} (h : e.recorded = false) (source : Path) :
    e.line source = { level := .error, message := e.message source } := by
  cases e with
  | preparing p => cases h
  | opening | checking | writing => rfl

end StageError

/-- The error that the documents of a sheet fail with, if they do. -/
def stageError? (fs : FileSystem) (s : Session) (source : Path) (dryRun : Bool) :
    Option StageError :=
  match fs.read source with
  | .error cause => some (.opening cause)
  | .ok bytes =>
    match s.prepare bytes with
    | (_, .error p) => some (.preparing p)
    | (s, .ok table) =>
      if dryRun then none
      else
        match checkDestinations fs s.languages with
        | (_, some (l, fault)) => some (.checking l.id fault)
        | (fs, none) =>
          match s.publish fs table with
          | (_, _, .error p) => some (.writing p)
          | (_, _, .ok _) => none

/-- What making the documents of a sheet comes to: an error if there is one, the session and the
run. -/
inductive Outcome (fs : FileSystem) (s : Session) (source : Path) :
    Option StageError → Session × Run → Prop
  | unopened {cause : SystemError} :
    Outcome fs s source (some (.opening cause))
      (s, .failed fs [] ((StageError.opening cause).message source))
  | refused {bytes : Bytes} {s' : Session} {p : Problem}
    (prepared : s.prepare bytes = (s', .error p)) :
    Outcome fs s source (some (.preparing p))
      (s', { files := fs, log := logOf s', failure := some .reported })
  | described {bytes : Bytes} {s' : Session} {table : Table}
    (prepared : s.prepare bytes = (s', .ok table)) :
    Outcome fs s source none (describeDocuments fs s' table)
  | blocked {bytes : Bytes} {s' : Session} {table : Table} {l : Language} {fault : PathFault}
    {fs' : FileSystem} (prepared : s.prepare bytes = (s', .ok table)) :
    Outcome fs s source (some (.checking l.id fault))
      (s', .failed fs' (logOf s') ((StageError.checking l.id fault).message source))
  | unwritten {bytes : Bytes} {s' s'' : Session} {table : Table} {fs' fs'' : FileSystem}
    {p : Problem} (prepared : s.prepare bytes = (s', .ok table))
    (published : s'.publish fs' table = (s'', fs'', .error p)) :
    Outcome fs s source (some (.writing p)) (s'', .failed fs'' (logOf s'') p.message)
  | written {s'' : Session} {fs'' : FileSystem} {paths : List Path} :
    Outcome fs s source none
      (s'', { files := fs'', log := logOf s'' ++ [(Event.completed paths.length).logLine] })

theorem outcome_produce (fs : FileSystem) (s : Session) (source : Path) (dryRun : Bool) :
    Outcome fs s source (stageError? fs s source dryRun) (produce fs s source dryRun) := by
  unfold produce stageError?
  cases fs.read source with
  | error cause => exact .unopened
  | ok bytes =>
    dsimp only
    rcases prepared : s.prepare bytes with ⟨s', p | table⟩
    · exact .refused prepared
    · cases dryRun with
      | true => exact .described prepared
      | false =>
        simp only [Bool.false_eq_true, if_false, writeDocuments]
        rcases checkDestinations fs s'.languages with ⟨fs', _ | ⟨l, fault⟩⟩
        · dsimp only
          rcases published : s'.publish fs' table with ⟨s'', fs'', p | paths⟩
          · exact .unwritten prepared published
          · exact .written
        · exact .blocked prepared

namespace Outcome

variable {fs : FileSystem} {s : Session} {source : Path} {error? : Option StageError}
  {made : Session × Run}

theorem failure (h : Outcome fs s source error? made) :
    made.2.failure = error?.map (·.failure source) := by
  cases h with
  | unopened | refused | described | blocked | unwritten | written => rfl

theorem logs (fresh : s.events = []) (h : Outcome fs s source error? made) :
    ∀ line ∈ logOf made.1, line ∈ made.2.log := by
  intro line recorded
  cases h with
  | unopened =>
    rw [logOf, fresh] at recorded
    cases recorded
  | refused | blocked | unwritten => exact recorded
  | described | written => exact List.mem_append_left _ recorded

theorem recorded {e : StageError} (own : e.recorded = true)
    (h : Outcome fs s source (some e) made) : e.line source ∈ made.2.log := by
  cases h with
  | refused prepared =>
    obtain ⟨_, _, report⟩ := s.preparationReport _
    rw [prepared] at report
    apply mem_logOf_of_mem
    rw [report.inTurn]
    exact List.mem_append_right _ (List.mem_singleton_self _)
  | unopened | blocked | unwritten => cases own

/-- The errors that a run logs on its way to another one are about documents. -/
theorem fields {e : StageError} (other : e.recorded = false)
    (h : Outcome fs s source (some e) made) {line : LogLine} (mem : line ∈ made.2.log)
    (error : line.level = .error) : line.fields ≠ [] := by
  cases h with
  | unopened => cases mem
  | refused => cases other
  | blocked prepared =>
    obtain ⟨d, recorded, wrong, rfl⟩ := exists_of_mem_logOf mem error
    rw [Session.isError_of_prepare prepared recorded] at wrong
    cases wrong
  | unwritten prepared published =>
    obtain ⟨d, recorded, wrong, rfl⟩ := exists_of_mem_logOf mem error
    rcases Session.language_of_publish published recorded with earlier | named
    · rw [Session.isError_of_prepare prepared earlier] at wrong
      cases wrong
    · exact d.logLine_fields named

end Outcome

/-! ## The report and the one failure of a run -/

def reportMessage (path : Path) (cause : SystemError) : Text :=
  "Cannot write report to ".toList ++ path ++ ": ".toList ++ cause.message

/-- Why the report of a run cannot be written: nothing if it is, or if none is asked for. -/
def reportError? (path : Option Path) (ds : Diagnostics) (files : FileSystem) :
    Option (Path × SystemError) :=
  path.bind fun p =>
    match files.write p (Utf8.encode (Report.text ds ++ ['\n'])) with
    | .error cause => some (p, cause)
    | .ok _ => none

theorem writeReport_cases (path : Option Path) (ds : Diagnostics) (run : Run) :
    (reportError? path ds run.files = none ∧ run.log <+: (writeReport path ds run).log ∧
      (writeReport path ds run).failure = run.failure) ∨
    ∃ p cause, reportError? path ds run.files = some (p, cause) ∧
      writeReport path ds run =
        { run with failure := some (.message (reportMessage p cause)) } := by
  cases path with
  | none => exact .inl ⟨rfl, List.prefix_refl _, rfl⟩
  | some p =>
    simp only [reportError?, writeReport, Option.bind_some]
    cases run.files.write p (Utf8.encode (Report.text ds ++ ['\n'])) with
    | error cause => exact .inr ⟨p, cause, rfl, rfl⟩
    | ok files => exact .inl ⟨rfl, List.prefix_append _ _, rfl⟩

theorem append_ne_append {a b : Text} (apart : ¬ a <+: b ∧ ¬ b <+: a) (t u : Text) :
    a ++ t ≠ b ++ u := by
  intro same
  have begins : b <+: a ++ t := same ▸ List.prefix_append b u
  exact (List.prefix_or_prefix_of_prefix (List.prefix_append a t) begins).elim apart.1 apart.2

/-- What is said of a report begins as nothing else does that a run can fail with. -/
theorem Outcome.message_ne {fs : FileSystem} {s : Session} {source : Path} {e : StageError}
    {made : Session × Run} (h : Outcome fs s source (some e) made) (other : e.recorded = false)
    (p : Path) (cause : SystemError) : e.message source ≠ reportMessage p cause := by
  unfold reportMessage
  cases h with
  | refused => cases other
  | unopened =>
    change openMessage _ _ ≠ _
    unfold openMessage
    simp only [List.append_assoc]
    exact append_ne_append (by decide) _ _
  | blocked =>
    unfold StageError.message
    simp only [List.append_assoc]
    exact append_ne_append (by decide) _ _
  | unwritten prepared published =>
    obtain ⟨failed, rfl⟩ := Session.error_of_publish published
    change Problem.message (.incomplete failed) ≠ _
    unfold Problem.message
    simp only [List.append_assoc]
    exact append_ne_append (by decide) _ _

theorem events_of_session? {fs : FileSystem} {r : CompileRequest} {s : Session} {source : Path}
    (h : r.session? fs = some (s, source)) : s.events = [] := by
  simp only [CompileRequest.session?, Option.bind_eq_bind, Option.bind_eq_some_iff] at h
  obtain ⟨project, -, platform, -, -, -, fresh, new, made⟩ := h
  obtain ⟨rfl, -⟩ := Prod.mk.inj (Option.some.inj made)
  cases begun : Session.new platform project.languages with
  | error p =>
    rw [begun] at new
    cases new
  | ok s =>
    rw [begun] at new
    obtain rfl := Option.some.inj new
    rw [(Session.new_eq_ok begun).1]

theorem Run.failureLines_of_message {run : Run} {text : Text}
    (h : run.failure = some (.message text)) :
    run.failureLines = [{ level := .error, message := text }] := by
  rw [failureLines, h]

/-! ## The log of a request -/

section

variable {fs : FileSystem} {r : CompileRequest} {s : Session} {source : Path} {verbose : Bool}

/-- What a request to compile leaves in the log besides lines for finding faults. -/
theorem mem_log_run {line : LogLine} (plain : line.level ≠ .debug) :
    line ∈ (Invocation.run fs { verbose := verbose, request := .compile r }).log ↔
      line ∈ (compile fs r).log ∨ line ∈ (compile fs r).failureLines := by
  simp only [Invocation.run, Request.run, mem_shownLines plain, List.mem_append]

theorem compile_of_session? (started : r.session? fs = some (s, source)) :
    ∃ log, (∀ line ∈ log, line.level ≠ .error) ∧
      compile fs r = writeReport r.report (produce fs s source r.dryRun).1.diagnostics
        ((produce fs s source r.dryRun).2.logging log) := by
  rcases compile_cases fs r with ⟨unstarted, -⟩ | ⟨s', source', log, started', quiet, ran⟩
  · cases unstarted.symm.trans started
  · obtain ⟨rfl, rfl⟩ := Prod.mk.inj (Option.some.inj (started'.symm.trans started))
    exact ⟨log, quiet, ran⟩

theorem exitCode_of_failed (started : r.session? fs = some (s, source))
    (failed : (produce fs s source r.dryRun).2.failure.isSome) :
    (Invocation.run fs { verbose := verbose, request := .compile r }).exitCode = 1 := by
  obtain ⟨log, -, ran⟩ := compile_of_session? started
  have ended : (compile fs r).failure.isSome := by
    rw [ran]
    exact isSome_failure_writeReport failed
  simp only [Invocation.run, Request.run, Run.exitCode, ended, if_true]

/-- What is logged while the documents are made stays in the log. -/
theorem mem_log_of_produced (started : r.session? fs = some (s, source)) {line : LogLine}
    (plain : line.level ≠ .debug) (logged : line ∈ (produce fs s source r.dryRun).2.log) :
    line ∈ (Invocation.run fs { verbose := verbose, request := .compile r }).log := by
  obtain ⟨log, -, ran⟩ := compile_of_session? started
  have before : line ∈ ((produce fs s source r.dryRun).2.logging log).log :=
    List.mem_append_right _ logged
  refine (mem_log_run plain).2 (.inl ?_)
  rw [ran]
  rcases writeReport_cases r.report (produce fs s source r.dryRun).1.diagnostics
      ((produce fs s source r.dryRun).2.logging log) with ⟨-, kept, -⟩ | ⟨p, cause, -, lost⟩
  · exact kept.subset before
  · rwa [lost]

/-- A failure that is not logged yet is logged at the end, if it is still the failure then. -/
theorem mem_log_of_failure (started : r.session? fs = some (s, source)) {text : Text}
    (failed : (produce fs s source r.dryRun).2.failure = some (.message text))
    (written : reportError? r.report (produce fs s source r.dryRun).1.diagnostics
      (produce fs s source r.dryRun).2.files = none) :
    { level := .error, message := text } ∈
      (Invocation.run fs { verbose := verbose, request := .compile r }).log := by
  obtain ⟨log, -, ran⟩ := compile_of_session? started
  have same : (compile fs r).failure = some (.message text) := by
    rw [ran]
    rcases writeReport_cases r.report (produce fs s source r.dryRun).1.diagnostics
        ((produce fs s source r.dryRun).2.logging log) with ⟨-, -, kept⟩ | ⟨p, cause, bad, -⟩
    · rw [kept]
      exact failed
    · cases written.symm.trans bad
  refine (mem_log_run Level.noConfusion).2 (.inr ?_)
  rw [Run.failureLines_of_message same]
  exact List.mem_singleton_self _

/-- If the report cannot be written, the errors in the log are those logged while the documents were
made, and that of the report. -/
theorem mem_log_iff_of_report_error (started : r.session? fs = some (s, source)) {p : Path}
    {cause : SystemError}
    (unwritten : reportError? r.report (produce fs s source r.dryRun).1.diagnostics
      (produce fs s source r.dryRun).2.files = some (p, cause))
    {line : LogLine} (error : line.level = .error) :
    line ∈ (Invocation.run fs { verbose := verbose, request := .compile r }).log ↔
      line ∈ (produce fs s source r.dryRun).2.log ∨
        line = { level := .error, message := reportMessage p cause } := by
  obtain ⟨log, quiet, ran⟩ := compile_of_session? started
  have plain : line.level ≠ .debug := by
    rw [error]
    exact Level.noConfusion
  have early : line ∉ log := fun logged => quiet line logged error
  rcases writeReport_cases r.report (produce fs s source r.dryRun).1.diagnostics
      ((produce fs s source r.dryRun).2.logging log) with ⟨good, -, -⟩ | ⟨p', cause', bad, lost⟩
  · cases unwritten.symm.trans good
  · obtain ⟨rfl, rfl⟩ := Prod.mk.inj (Option.some.inj (unwritten.symm.trans bad))
    rw [mem_log_run plain, ran, lost, Run.failureLines_of_message rfl, List.mem_singleton,
      Run.logging, List.mem_append, or_iff_right early]

end

/-- **A failure is logged unless the report fails after it.** Whatever a session has recorded is in
the log. If its documents fail with an error, the run ends with exit code 1, and the log tells of
the error if and only if the session has recorded it or nothing is wrong with the report; if
something is, the log tells of that. -/
theorem failure_logged_iff {fs : FileSystem} {r : CompileRequest} {s : Session} {source : Path}
    (started : r.session? fs = some (s, source)) (verbose : Bool) :
    let made := produce fs s source r.dryRun
    let run := Invocation.run fs { verbose := verbose, request := .compile r }
    (∀ d ∈ made.1.diagnostics, d.logLine ∈ run.log) ∧
    ∀ e, stageError? fs s source r.dryRun = some e →
      run.exitCode = 1 ∧
      (e.line source ∈ run.log ↔
        e.recorded = true ∨ reportError? r.report made.1.diagnostics made.2.files = none) ∧
      ∀ p cause, reportError? r.report made.1.diagnostics made.2.files = some (p, cause) →
        { level := .error, message := reportMessage p cause } ∈ run.log := by
  intro made run
  have outcome := outcome_produce fs s source r.dryRun
  refine ⟨fun d recorded => ?_, fun e failed => ?_⟩
  · exact mem_log_of_produced started d.logLine_level_ne_debug
      (outcome.logs (events_of_session? started) _ (mem_logOf_of_mem recorded))
  · rw [failed] at outcome
    have failure : made.2.failure = some (e.failure source) := outcome.failure
    have plain : (e.line source).level ≠ .debug := by
      rw [e.line_level]
      exact Level.noConfusion
    refine ⟨exitCode_of_failed started (by rw [failure]; rfl), ⟨?only, ?shown⟩, ?instead⟩
    case only =>
      intro logged
      cases unwritten : reportError? r.report made.1.diagnostics made.2.files with
      | none => exact .inr rfl
      | some fault =>
        obtain ⟨p, cause⟩ := fault
        refine .inl (Bool.of_not_eq_false fun other => ?_)
        have bare := e.line_of_not_recorded other source
        rcases (mem_log_iff_of_report_error started unwritten (e.line_level source)).1 logged with
          within | last
        · exact outcome.fields other within (e.line_level source) (by rw [bare])
        · rw [bare] at last
          exact outcome.message_ne other p cause (LogLine.mk.inj last).2.1
    case shown =>
      intro kept
      cases own : e.recorded with
      | true => exact mem_log_of_produced started plain (outcome.recorded own)
      | false =>
        rw [own, or_iff_right Bool.false_ne_true] at kept
        rw [StageError.failure, own] at failure
        rw [e.line_of_not_recorded own]
        exact mem_log_of_failure started failure kept
    case instead =>
      intro p cause unwritten
      exact (mem_log_iff_of_report_error started unwritten rfl).2 (.inr rfl)

/-- Two rows with one key, and a report in a directory that is not there: both are told of. -/
theorem failure_logged_iff_of_refused_sheet :
    let sheet := Utf8.encode "key,en\nk,A\nk,B\n".toList
    let project := Utf8.encode "URL: s\nPlatform: web\nLanguage: en, out/en\n".toList
    let fs : FileSystem :=
      { home := [], root := .file "p".toList project (.file "s".toList sheet .empty) }
    let r : CompileRequest := { project := "p".toList, report := some "no/r".toList }
    let run := Invocation.run fs { verbose := false, request := .compile r }
    let e := StageError.preparing (.duplicateKey 2 3 "k".toList)
    ∃ s : Session, r.session? fs = some (s, "s".toList) ∧
      stageError? fs s "s".toList r.dryRun = some e ∧
      run.exitCode = 1 ∧ e.line "s".toList ∈ run.log ∧
      { level := .error, message := reportMessage "no/r".toList .notFound } ∈ run.log := by
  intro sheet project fs r run e
  let l : Language := { id := "en".toList, destination := "out/en".toList }
  let s : Session := { platform := .web, languages := [l] }
  have started : r.session? fs = some (s, "s".toList) := by decide +kernel
  have failed : stageError? fs s "s".toList r.dryRun = some e := by decide +kernel
  have unwritten : reportError? r.report (produce fs s "s".toList r.dryRun).1.diagnostics
      (produce fs s "s".toList r.dryRun).2.files = some ("no/r".toList, .notFound) := by
    decide +kernel
  obtain ⟨code, logged, instead⟩ := (failure_logged_iff started false).2 e failed
  exact ⟨s, started, failed, code, logged.2 (.inl rfl), instead _ _ unwritten⟩

/-- An output that is a directory, and a report that cannot be written either: the only error in
the log is that of the report. -/
theorem failure_lost_to_report :
    let sheet := Utf8.encode "key,en\nk,A\n".toList
    let project := Utf8.encode "URL: s\nPlatform: ios\nLanguage: en, out\n".toList
    let fs : FileSystem :=
      { home := []
        root := .directory "out".toList .empty
          (.file "p".toList project (.file "s".toList sheet .empty)) }
    let arguments := ["compile", "-c", "p", "--report-json", "no/r"].map String.toList
    let l : Language := { id := "en".toList, destination := "out".toList }
    let s : Session := { platform := .ios, languages := [l] }
    let e := StageError.checking l.id (.isADirectory "out".toList)
    ∃ (i : Invocation) (r : CompileRequest),
      Invocation.ofArguments? arguments = some i ∧ i.request = .compile r ∧
      r.session? fs = some (s, "s".toList) ∧ stageError? fs s "s".toList r.dryRun = some e ∧
      (e.line "s".toList).text =
        "Output validation failed for en: Output path is a directory: out".toList ∧
      e.line "s".toList ∉ (i.run fs).log ∧
      ((i.run fs).log.filter (·.level == .error)).map (·.text) =
        ["Cannot write report to no/r: No such file or directory (os error 2)".toList] := by
  intro sheet project fs arguments l s e
  have read : Invocation.ofArguments? arguments = some
      ⟨false, .compile { project := "p".toList, report := some "no/r".toList }⟩ := by
    decide +kernel
  refine ⟨_, _, read, rfl, ?_, ?_, ?_, ?_, ?_⟩
  · decide +kernel
  · decide +kernel
  · decide +kernel
  · decide +kernel
  · decide +kernel

end Command

end Phrasebook

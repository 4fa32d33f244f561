import Phrasebook.Proofs.History

/-!
# Using a session again

To prepare a sheet begins a new run, so nothing of the earlier runs shows from there on. Two
sessions that were made alike and have the same options may still differ in the columns of their
languages: a sheet without a header leaves the columns of the sheet before it. `Alike` allows just
that difference. Each call keeps it (`Alike.answer`), so no transcript shows it.
-/

namespace Phrasebook.Session

/-- Two sessions that differ in nothing but the columns of their languages. -/
structure Alike (s t : Session) : Prop where
  declared : s.declared = t.declared
  options : s.options = t.options
  events : s.events = t.events

theorem rendered_eq {s t : Session} (declared : s.declared = t.declared)
    (options : s.options = t.options) (table : Table) : s.rendered table = t.rendered table := by
  obtain ⟨platform, languages⟩ := Prod.mk.inj declared
  have unbound (s : Session) :
      s.rendered table = (s.languages.map (·.unbound)).map
        (Document.render s.platform s.options.reference table) := by
    rw [List.map_map]
    rfl
  rw [unbound s, unbound t, platform, languages, options]

theorem rendered_prepare (s : Session) (bytes : Bytes) (table : Table) :
    (s.prepare bytes).1.rendered table = s.rendered table :=
  rendered_eq (s.declared_prepare bytes) rfl table

/-- A header binds the languages without regard to the columns they had. -/
theorem map_bind_eq {s t : Session} (declared : s.declared = t.declared) (header : Row) :
    s.languages.map (·.bind header) = t.languages.map (·.bind header) := by
  have rebound (s : Session) :
      s.languages.map (·.bind header) = (s.languages.map (·.unbound)).map (·.bind header) := by
    rw [List.map_map]
    rfl
  rw [rebound s, rebound t, (Prod.mk.inj declared).2]

/-- To prepare a sheet makes sessions alike, whatever they had recorded. -/
theorem prepare_alike {s t : Session} (declared : s.declared = t.declared)
    (options : s.options = t.options) (bytes : Bytes) :
    (s.prepare bytes).2 = (t.prepare bytes).2 ∧ Alike (s.prepare bytes).1 (t.prepare bytes).1 := by
  have same : (s.preparation bytes).table = (t.preparation bytes).table ∧
      (s.preparation bytes).events = (t.preparation bytes).events := by
    unfold preparation
    rw [options]
    cases Sheet.read t.options.sheet bytes with
    | error p => exact ⟨rfl, rfl⟩
    | ok sheet =>
      have tables : s.tableOptions = t.tableOptions := by
        funext column
        simp only [tableOptions, options, (Prod.mk.inj declared).1]
      dsimp only
      rw [map_bind_eq declared, tables]
      exact ⟨rfl, rfl⟩
  refine ⟨same.1, ?_, options, ?_⟩
  · exact (s.declared_prepare bytes).trans (declared.trans (t.declared_prepare bytes).symm)
  · simp only [prepare, same]

namespace Alike

variable {s t : Session}

theorem diagnostics (h : Alike s t) : s.diagnostics = t.diagnostics :=
  congrArg diagnosticsOf h.events

theorem record (h : Alike s t) (events : List Event) :
    Alike (s.record events) (t.record events) :=
  ⟨h.declared, h.options, congrArg (· ++ events) h.events⟩

theorem publish (h : Alike s t) (fs : FileSystem) (table : Table) :
    (s.publish fs table).2 = (t.publish fs table).2 ∧
      Alike (s.publish fs table).1 (t.publish fs table).1 := by
  have documents := rendered_eq h.declared h.options table
  have platform := (Prod.mk.inj h.declared).1
  unfold Session.publish
  rw [documents, platform]
  exact ⟨rfl, h.record _⟩

theorem compile (h : Alike s t) (fs : FileSystem) (bytes : Bytes) :
    (s.compile fs bytes).2 = (t.compile fs bytes).2 ∧
      Alike (s.compile fs bytes).1 (t.compile fs bytes).1 := by
  obtain ⟨result, prepared⟩ := prepare_alike h.declared h.options bytes
  simp only [compile_snd, compile_fst, result]
  cases (t.prepare bytes).2 with
  | error p => exact ⟨rfl, prepared⟩
  | ok table =>
    obtain ⟨outcome, published⟩ := prepared.publish fs table
    refine ⟨outcome, ?_⟩
    dsimp only
    rw [outcome]
    exact published.record _

/-- The step lemma: a call gives the same back, and what is left is alike. -/
theorem answer (h : Alike s t) (call : Call) :
    (s.answer call).2 = (t.answer call).2 ∧ Alike (s.answer call).1 (t.answer call).1 := by
  cases call with
  | configure options => exact ⟨rfl, h.declared, rfl, h.events⟩
  | prepare bytes =>
    obtain ⟨result, alike⟩ := prepare_alike h.declared h.options bytes
    exact ⟨congrArg Reply.prepared result, alike⟩
  | render table =>
    simp only [Session.answer, Session.render, rendered_eq h.declared h.options]
    exact ⟨rfl, h.record _⟩
  | publish fs table =>
    obtain ⟨outcome, alike⟩ := h.publish fs table
    exact ⟨congrArg Reply.published outcome, alike⟩
  | compile fs bytes =>
    obtain ⟨outcome, alike⟩ := h.compile fs bytes
    exact ⟨congrArg Reply.published outcome, alike⟩
  | compileFile fs path =>
    simp only [Session.answer, compileFile]
    cases fs.find path with
    | error e => exact ⟨rfl, h.declared, h.options, rfl⟩
    | ok node =>
      cases node with
      | directory => exact ⟨rfl, h.declared, h.options, rfl⟩
      | file bytes =>
        obtain ⟨outcome, alike⟩ := h.compile fs bytes
        exact ⟨congrArg Reply.published outcome, alike⟩

theorem transcript (h : Alike s t) (calls : List Call) :
    s.transcript calls = t.transcript calls := by
  induction calls generalizing s t with
  | nil => rfl
  | cons call calls ih =>
    obtain ⟨reply, alike⟩ := h.answer call
    simp only [Session.transcript, reply, alike.diagnostics, ih alike]

end Alike

/-- **A session can be used again.** Two sessions for the same platform and languages, with the same
options now, answer alike from the next sheet on, whatever they were used for before: every call
gives the same back and leaves the same diagnostics. -/
theorem reused_sessions_answer_alike {platform : Platform} {languages : List Language}
    {s t : Session} (made : Session.new platform languages = .ok s)
    (other : Session.new platform languages = .ok t) (earlier otherEarlier : List Call)
    (options : (s.after earlier).options = (t.after otherEarlier).options) (bytes : Bytes)
    (later : List Call) :
    (s.after earlier).transcript (.prepare bytes :: later) =
      (t.after otherEarlier).transcript (.prepare bytes :: later) := by
  obtain rfl : s = t := Except.ok.inj (made.symm.trans other)
  have declared : (s.after earlier).declared = (s.after otherEarlier).declared :=
    (s.declared_after earlier).trans (s.declared_after otherEarlier).symm
  obtain ⟨result, alike⟩ := prepare_alike declared options bytes
  simp only [transcript, answer, Prod.map_fst, Prod.map_snd, id_eq, result, alike.diagnostics,
    alike.transcript later]

/-- After a sheet without a header the columns of an earlier sheet are left in one of two sessions,
and still neither their documents nor their files tell them apart. -/
theorem reused_sessions_answer_alike_without_header :
    let languages : List Language :=
      [{ id := "en".toList, destination := "en.strings".toList },
        { id := "fr".toList, destination := "fr.strings".toList }]
    let first := Utf8.encode "key,en,fr\nhi,Hello,Salut\nho hum,Ho,\n".toList
    let table : Table :=
      [Phrase.withValue { key := "hi".toList, row := 2 } "en".toList (some "Hello".toList)]
    let fs : FileSystem := { home := [] }
    let earlier : List Call :=
      [.configure { strictKeys := true }, .prepare first, .publish fs table, .configure {}]
    let later : List Call := [.render table, .publish fs table, .prepare first]
    ∃ s : Session,
      Session.new .ios languages = .ok s ∧
      (s.after earlier).options = (s.after []).options ∧
      ((s.after earlier).prepare []).1.languages ≠ ((s.after []).prepare []).1.languages ∧
      (s.after earlier).transcript (.prepare [] :: later) =
        (s.after []).transcript (.prepare [] :: later) := by
  intro languages first table fs earlier later
  have made : Session.new .ios languages = .ok { platform := .ios, languages := languages } := rfl
  refine ⟨_, made, rfl, by decide +kernel, ?_⟩
  exact reused_sessions_answer_alike made made earlier [] rfl [] later

end Phrasebook.Session

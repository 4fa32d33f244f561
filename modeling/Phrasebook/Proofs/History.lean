import Phrasebook.Proofs.Preparing

namespace Phrasebook

/-- The language as it was declared, before any sheet was read. -/
def Language.unbound (l : Language) : Language := { l with column := none }

namespace Session

/-- One use of a session. -/
inductive Call
  | configure (options : Options)
  | prepare (bytes : Bytes)
  | render (table : Table)
  | publish (fs : FileSystem) (table : Table)
  | compile (fs : FileSystem) (bytes : Bytes)
  | compileFile (fs : FileSystem) (path : Path)

inductive Reply
  | configured
  | prepared (result : Except Problem Table)
  | rendered (documents : List Document)
  | published (outcome : FileSystem × Except Problem (List Path))

/-- The session after a call, and what the call gives back. -/
def answer (s : Session) : Call → Session × Reply
  | .configure options => ({ s with options := options }, .configured)
  | .prepare bytes => (s.prepare bytes).map id .prepared
  | .render table => (s.render table).map id .rendered
  | .publish fs table => (s.publish fs table).map id .published
  | .compile fs bytes => (s.compile fs bytes).map id .published
  | .compileFile fs path => (s.compileFile fs path).map id .published

def after (s : Session) (calls : List Call) : Session :=
  calls.foldl (fun s call => (s.answer call).1) s

/-- What some calls give back, each with the diagnostics that the session then holds. -/
def transcript (s : Session) : List Call → List (Reply × Diagnostics)
  | [] => []
  | call :: calls =>
    let (s, reply) := s.answer call
    (reply, s.diagnostics) :: transcript s calls

/-- What a session was made with. -/
def declared (s : Session) : Platform × List Language :=
  (s.platform, s.languages.map (·.unbound))

/-- The header of a sheet is all that decides what the languages are bound to. -/
theorem languages_prepare (s : Session) (bytes : Bytes) :
    (s.prepare bytes).1.languages =
      match Sheet.read s.options.sheet bytes with
      | .ok sheet => s.languages.map (·.bind sheet.header)
      | .error _ => s.languages := by
  simp only [prepare, preparation]
  cases Sheet.read s.options.sheet bytes with
  | error p => rfl
  | ok sheet =>
    dsimp only
    split
    · rfl
    · split <;> rfl

theorem declared_prepare (s : Session) (bytes : Bytes) :
    (s.prepare bytes).1.declared = s.declared := by
  have same : (s.prepare bytes).1.languages.map (·.unbound) = s.languages.map (·.unbound) := by
    rw [languages_prepare]
    split
    · rw [List.map_map]
      rfl
    · rfl
  exact congrArg (s.platform, ·) same

/-- What a compilation gives back is what the first of its two steps that fails gives back. -/
theorem compile_snd (s : Session) (fs : FileSystem) (bytes : Bytes) :
    (s.compile fs bytes).2 =
      match (s.prepare bytes).2 with
      | .error p => (fs, .error p)
      | .ok table => ((s.prepare bytes).1.publish fs table).2 := by
  unfold compile
  rcases s.prepare bytes with ⟨s, p | table⟩
  · rfl
  · rcases written : s.publish fs table with ⟨t, files, p | paths⟩
    · simp only [written]
    · simp only [written]

def completion : Except Problem (List Path) → List Event
  | .ok written => [.completed written.length]
  | .error _ => []

theorem compile_fst (s : Session) (fs : FileSystem) (bytes : Bytes) :
    (s.compile fs bytes).1 =
      match (s.prepare bytes).2 with
      | .error _ => (s.prepare bytes).1
      | .ok table =>
        let published := (s.prepare bytes).1.publish fs table
        published.1.record (completion published.2.2) := by
  unfold compile
  rcases s.prepare bytes with ⟨s, p | table⟩
  · rfl
  · rcases written : s.publish fs table with ⟨t, files, p | paths⟩
    · simp [written, completion, record]
    · simp only [written, completion]

theorem declared_answer (s : Session) (call : Call) : (s.answer call).1.declared = s.declared := by
  have compiled (fs : FileSystem) (bytes : Bytes) :
      (s.compile fs bytes).1.declared = s.declared := by
    rw [compile_fst]
    split
    · exact s.declared_prepare bytes
    · exact s.declared_prepare bytes
  cases call with
  | configure | render | publish => rfl
  | prepare bytes => exact s.declared_prepare bytes
  | compile fs bytes => exact compiled fs bytes
  | compileFile fs path =>
    simp only [answer, Prod.map_fst, id_eq, compileFile]
    split
    · exact compiled fs _
    · rfl
    · rfl

theorem declared_after (s : Session) (calls : List Call) :
    (s.after calls).declared = s.declared := by
  induction calls generalizing s with
  | nil => rfl
  | cons call calls ih => exact (ih _).trans (s.declared_answer call)

end Session

end Phrasebook

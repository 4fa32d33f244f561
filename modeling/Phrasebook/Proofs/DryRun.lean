import Mathlib.Data.List.Nodup
import Phrasebook.Proofs.SharedFiles

namespace Phrasebook

theorem Turn.diagnostics_of_succeeded {t : Turn} (h : t.succeeded = true) :
    t.diagnostics = t.rendered.diagnostics := by
  rw [Turn.diagnostics, Turn.failure?_eq_none.2 h]
  exact List.append_nil _

namespace Session

/-- What a dry run shows of each document: its language, its destination and its text. -/
def preview (s : Session) (table : Table) : List (Text × Path × Text) :=
  (s.render table).2.map fun d => (d.language, d.destination, d.text s.platform)

theorem preview_eq (s : Session) (table : Table) :
    s.preview table = s.languages.map fun l => (l.id, l.destination,
      (Document.render s.platform s.options.reference table l).document.text s.platform) := by
  simp only [preview, render, rendered, Document.renderAll, List.map_map]
  rfl

theorem diagnostics_publish {s : Session} {fs : FileSystem} {table : Table}
    (created : ∀ t ∈ Publication.turns (Format.frame s.platform) fs (s.rendered table),
      t.succeeded = true) :
    (s.publish fs table).1.diagnostics =
      s.diagnostics ++ (s.rendered table).flatMap (·.diagnostics) := by
  have own : (Publication.turns (Format.frame s.platform) fs (s.rendered table)).flatMap
      (·.diagnostics) = (s.rendered table).flatMap (·.diagnostics) := by
    conv_rhs =>
      rw [← Publication.map_rendered_turns (Format.frame s.platform) fs (s.rendered table)]
    rw [List.flatMap_map]
    exact List.flatMap_congr fun t turn => Turn.diagnostics_of_succeeded (created t turn)
  simp only [publish, record, diagnostics, diagnosticsOf_append, Publication.diagnosticsOf_publish,
    own]

/-- **A dry run predicts the real one.** If the destinations name different files and each of them
can be created when its turn comes, then what a dry run shows for each language, in the order of
their declaration, is what a publication comes to: it gives these destinations back in this order,
leaves this text in each of the files, and records the same diagnostics. -/
theorem dry_run_predicts {s : Session} {fs : FileSystem} {table : Table}
    (apart : (s.languages.map fun l => fs.fileAt? l.destination).Nodup)
    (created : ∀ t ∈ Publication.turns (Format.frame s.platform) fs (s.rendered table),
      t.succeeded = true) :
    (s.preview table).map (fun d => (d.1, d.2.1)) = s.languages.map (fun l => (l.id, l.destination)) ∧
      (s.publish fs table).2.2 = .ok ((s.preview table).map (·.2.1)) ∧
      (∀ d ∈ s.preview table,
        (s.publish fs table).2.1.read d.2.1 = .ok (Utf8.encode d.2.2)) ∧
      (s.publish fs table).1.diagnostics = (s.render table).1.diagnostics := by
  refine ⟨?declared, ?written, ?stored, ?recorded⟩
  case declared =>
    rw [preview_eq, List.map_map]
    rfl
  case written =>
    have destinations := congrArg (List.map (·.document.destination))
      (Publication.map_rendered_turns (Format.frame s.platform) fs (s.rendered table))
    rw [List.map_map] at destinations
    rw [publish, Publication.result_publish]
    dsimp only
    rw [if_pos (List.all_eq_true.2 created)]
    refine congrArg Except.ok (destinations.trans ?_)
    rw [preview_eq, rendered, Document.renderAll, List.map_map, List.map_map]
    rfl
  case stored =>
    intro d shown
    rw [preview_eq] at shown
    obtain ⟨l, declared, rfl⟩ := List.mem_map.1 shown
    obtain ⟨m, writer, same, read⟩ := read_of_all_succeeded created declared
    obtain rfl : m = l := List.inj_on_of_nodup_map apart writer declared same
    exact read m declared rfl
  case recorded => rw [diagnostics_publish created, diagnostics_render]

/-- A comment, a text without key and a key that the format refuses; one document goes into a
directory and one replaces a file. -/
theorem dry_run_predicts_with_troubles :
    let s : Session :=
      { platform := .android
        languages :=
          [{ id := "en".toList, destination := "d/en.xml".toList },
            { id := "fr".toList, destination := "./d/../fr.xml".toList }] }
    let fs : FileSystem :=
      { home := []
        root := .directory "d".toList .empty (.file "fr.xml".toList [0, 255] .empty) }
    let bytes := Utf8.encode "key,en,fr\nHeader,Top,\nhi,Hi,Salut\n,Y,\na<b,Z,\n".toList
    ∃ (s' : Session) (table : Table), s.prepare bytes = (s', .ok table) ∧ table.length = 4 ∧
      (s'.languages.map fun l => fs.fileAt? l.destination).Nodup ∧
      (∀ t ∈ Publication.turns (Format.frame s'.platform) fs (s'.rendered table),
        t.succeeded = true) ∧
      (s'.publish fs table).2.2 = .ok ((s'.preview table).map (·.2.1)) ∧
      (∀ d ∈ s'.preview table,
        (s'.publish fs table).2.1.read d.2.1 = .ok (Utf8.encode d.2.2)) ∧
      (s'.publish fs table).1.diagnostics = (s'.render table).1.diagnostics ∧
      (s'.render table).1.diagnostics.length = 3 := by
  intro s fs bytes
  have handed : ∃ table ∈ (s.prepare bytes).2.toOption, table.length = 4 := by decide +kernel
  obtain ⟨s', table, prepared, four⟩ := exists_prepared handed
  have made : table ∈ (s.prepare bytes).2.toOption := by rw [prepared]; rfl
  obtain rfl : (s.prepare bytes).1 = s' := by rw [prepared]
  have apart : ((s.prepare bytes).1.languages.map fun l => fs.fileAt? l.destination).Nodup := by
    decide +kernel
  have created : ∀ table ∈ (s.prepare bytes).2.toOption,
      ∀ t ∈ Publication.turns (Format.frame s.platform) fs ((s.prepare bytes).1.rendered table),
        t.succeeded = true := by decide +kernel
  have three : ∀ table ∈ (s.prepare bytes).2.toOption,
      ((s.prepare bytes).1.render table).1.diagnostics.length = 3 := by decide +kernel
  obtain ⟨-, written, stored, recorded⟩ :=
    dry_run_predicts (s := (s.prepare bytes).1) apart (created table made)
  exact ⟨_, table, prepared, four, apart, created table made, written, stored, recorded,
    three table made⟩

end Session

end Phrasebook

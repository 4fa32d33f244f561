import Phrasebook.Proofs.Publishing
import Phrasebook.Proofs.Reuse

namespace Phrasebook.Session

/-- The bytes of the document of a language. -/
def bytesOf (s : Session) (table : Table) (l : Language) : Bytes :=
  Utf8.encode ((Document.render s.platform s.options.reference table l).document.text s.platform)

theorem compile_eq_ok {s s' : Session} {fs after : FileSystem} {bytes : Bytes}
    {written : List Path} (h : s.compile fs bytes = (s', after, .ok written)) :
    ∃ table, (s.prepare bytes).2 = .ok table ∧
      (Publication.publish (Format.frame s.platform) fs (s.rendered table)).result = .ok written ∧
      after = (Publication.publish (Format.frame s.platform) fs (s.rendered table)).files := by
  have outcome : (s.compile fs bytes).2 = (after, .ok written) := by rw [h]
  rw [compile_snd] at outcome
  cases prepared : (s.prepare bytes).2 with
  | error p => simp [prepared] at outcome
  | ok table =>
    rw [prepared] at outcome
    simp only [publish, rendered_prepare] at outcome
    obtain ⟨files, result⟩ := Prod.mk.inj outcome
    exact ⟨table, rfl, result, files.symm⟩

theorem mem_turns {s : Session} {fs : FileSystem} {table : Table} {r : Rendered} :
    (∃ t ∈ Publication.turns (Format.frame s.platform) fs (s.rendered table), t.rendered = r) ↔
      ∃ l ∈ s.languages, Document.render s.platform s.options.reference table l = r := by
  rw [← List.mem_map, Publication.map_rendered_turns, rendered, Document.renderAll, List.mem_map]

/-- When nothing fails, a language finds the document of some language with the same file, and that
is the same language for all that share the file. -/
theorem read_of_all_succeeded {s : Session} {fs : FileSystem} {table : Table}
    (all : ∀ t ∈ Publication.turns (Format.frame s.platform) fs (s.rendered table),
      t.succeeded = true)
    {l : Language} (mem : l ∈ s.languages) :
    ∃ m ∈ s.languages, fs.fileAt? m.destination = fs.fileAt? l.destination ∧
      ∀ k ∈ s.languages, fs.fileAt? k.destination = fs.fileAt? l.destination →
        (Publication.publish (Format.frame s.platform) fs (s.rendered table)).files.read
          k.destination = .ok (s.bytesOf table m) := by
  have turnOf {k : Language} (declared : k ∈ s.languages) :
      ∃ t ∈ Publication.turns (Format.frame s.platform) fs (s.rendered table),
        t.rendered = Document.render s.platform s.options.reference table k :=
    mem_turns.2 ⟨k, declared, rfl⟩
  obtain ⟨t, turn, own⟩ := turnOf mem
  obtain ⟨place, last, found, writer, -⟩ := Publication.read_publish turn (all t turn)
  obtain ⟨turn_last, -, found_last⟩ := Publication.lastAt?_eq_some writer
  obtain ⟨m, declared, document⟩ := mem_turns.1 ⟨last, turn_last, rfl⟩
  rw [Turn.document, own] at found
  rw [Turn.document, ← document] at found_last
  refine ⟨m, declared, found_last.trans found.symm, fun k hk same => ?_⟩
  obtain ⟨u, turn_u, own_u⟩ := turnOf hk
  obtain ⟨place_u, last_u, found_u, writer_u, read⟩ :=
    Publication.read_publish turn_u (all u turn_u)
  rw [Turn.document, own_u] at found_u read
  obtain rfl : place = place_u := Option.some.inj (found.symm.trans (same.symm.trans found_u))
  obtain rfl : last = last_u := Option.some.inj (writer.symm.trans writer_u)
  rw [Turn.document, ← document] at read
  exact read

/-- **Every language finds its own document exactly if languages with one file have one document.**
A run that succeeds has prepared a table and written a document for each language, but what a
language finds at its destination is its own document just when no other document took its place. -/
theorem own_documents_read_iff_agree {s s' : Session} {fs after : FileSystem} {bytes : Bytes}
    {written : List Path} (h : s.compile fs bytes = (s', after, .ok written)) :
    ∃ table, (s.prepare bytes).2 = .ok table ∧
      ((∀ l ∈ s.languages, after.read l.destination = .ok (s.bytesOf table l)) ↔
        ∀ l ∈ s.languages, ∀ m ∈ s.languages,
          fs.fileAt? l.destination = fs.fileAt? m.destination →
          s.bytesOf table l = s.bytesOf table m) := by
  obtain ⟨table, prepared, result, rfl⟩ := compile_eq_ok h
  have all : ∀ t ∈ Publication.turns (Format.frame s.platform) fs (s.rendered table),
      t.succeeded = true := by
    rw [Publication.result_publish] at result
    dsimp only at result
    split at result
    · exact List.all_eq_true.1 ‹_›
    · cases result
  refine ⟨table, prepared, fun own l hl m hm same => ?_, fun agree l hl => ?_⟩
  · obtain ⟨k, -, -, read⟩ := read_of_all_succeeded all hl
    have first := (own l hl).symm.trans (read l hl rfl)
    have second := (own m hm).symm.trans (read m hm same.symm)
    exact (Except.ok.inj first).trans (Except.ok.inj second).symm
  · obtain ⟨m, hm, same, read⟩ := read_of_all_succeeded all hl
    rw [read l hl rfl, agree l hl m hm same.symm]

/-- Two languages with one text share a file under two paths, and a third has a file of its own. -/
theorem own_documents_read_iff_agree_on_texts :
    let s : Session :=
      { platform := .ios
        languages :=
          [{ id := "en".toList, destination := "d/en".toList },
            { id := "gb".toList, destination := "./d/../d/en".toList },
            { id := "fr".toList, destination := "fr".toList }] }
    let fs : FileSystem := { home := [], root := .directory "d".toList .empty .empty }
    let bytes := Utf8.encode "key,en,fr,gb\nhi,Hello,Salut,Hello\n".toList
    ∃ (s' : Session) (after : FileSystem) (written : List Path),
      s.compile fs bytes = (s', after, .ok written) ∧ written.length = 3 ∧
      ∃ table, (s.prepare bytes).2 = .ok table ∧
        ∀ l ∈ s.languages, after.read l.destination = .ok (s.bytesOf table l) := by
  intro s fs bytes
  have result : (s.compile fs bytes).2.2 = .ok (s.languages.map (·.destination)) := by
    decide +kernel
  have compiled : s.compile fs bytes = ((s.compile fs bytes).1, (s.compile fs bytes).2.1,
      .ok (s.languages.map (·.destination))) := by rw [← result]
  obtain ⟨table, prepared, own⟩ := own_documents_read_iff_agree compiled
  have agree : ∀ table ∈ (s.prepare bytes).2.toOption, ∀ l ∈ s.languages, ∀ m ∈ s.languages,
      fs.fileAt? l.destination = fs.fileAt? m.destination →
      s.bytesOf table l = s.bytesOf table m := by decide +kernel
  refine ⟨_, _, _, compiled, rfl, table, prepared, own.2 (agree table ?_)⟩
  rw [prepared]
  rfl

/-- Of two languages with the same destination, the first does not find its document there, though
the run has succeeded. -/
theorem later_document_takes_the_file :
    ¬ ∀ (platform : Platform) (languages : List Language) (fresh s : Session) (options : Options)
        (fs after : FileSystem) (bytes : Bytes) (written : List Path),
      Session.new platform languages = .ok fresh →
      { fresh with options := options }.compile fs bytes = (s, after, .ok written) →
      ∃ table, ({ fresh with options := options }.prepare bytes).2 = .ok table ∧
        ∀ l ∈ languages, after.read l.destination =
          .ok ({ fresh with options := options }.bytesOf table l) := by
  intro all
  let en : Language := { id := "en".toList, destination := "out.strings".toList }
  let fr : Language := { id := "fr".toList, destination := "out.strings".toList }
  let s : Session := { platform := .ios, languages := [en, fr] }
  let fs : FileSystem := { home := [] }
  let bytes := Utf8.encode "key,en,fr\nhi,Hello,Bonjour\n".toList
  have result : (s.compile fs bytes).2.2 = .ok [en.destination, fr.destination] := by
    decide +kernel
  have compiled : s.compile fs bytes = ((s.compile fs bytes).1, (s.compile fs bytes).2.1,
      .ok [en.destination, fr.destination]) := by rw [← result]
  obtain ⟨table, prepared, own⟩ := all .ios [en, fr] s _ {} fs _ bytes _ rfl compiled
  have same : s.bytesOf table en = s.bytesOf table fr :=
    Except.ok.inj ((own en (by simp)).symm.trans (own fr (by simp)))
  have differ : ∀ table ∈ (s.prepare bytes).2.toOption,
      s.bytesOf table en ≠ s.bytesOf table fr := by decide +kernel
  refine differ table ?_ same
  rw [show (s.prepare bytes).2 = .ok table from prepared]
  rfl

end Phrasebook.Session

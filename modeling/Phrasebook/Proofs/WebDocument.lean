import Phrasebook.Proofs.Json
import Phrasebook.Proofs.KeyOrder
import Phrasebook.Proofs.Preparing

namespace Phrasebook

namespace Web

/-- The member of a phrase: none for a phrase without a key, a section comment or a phrase without
a text in the language. -/
def member? (language : Text) (p : Phrase) : Option (Text × Text) :=
  if p.key.isEmpty || p.isHeader then none
  else (p.value? language).map fun value => (p.key, normalized value)

def members (language : Text) (table : Table) : List (Text × Text) :=
  table.filterMap (member? language)

open Json in
theorem lexes_string (key value : Text) :
    Lexes (string key value) [.string key, .colon, .string value] := by
  have indent : Lexes "    ".toList [] := rfl
  have colon : Lexes ": ".toList [.colon] := rfl
  exact ((indent.append (lexes_quoted key)).append colon).append (lexes_quoted value)

open Json in
theorem lexes_frame (members : List (Text × Text)) :
    Lexes (frame (members.map fun m => string m.1 m.2))
      (.openBrace :: [Token.comma].intercalate
        (members.map fun m => [.string m.1, .colon, .string m.2]) ++ [.closeBrace]) := by
  have opened : Lexes "\x7b\n".toList [.openBrace] := rfl
  have comma : Lexes ",\n".toList [.comma] := rfl
  have closed : Lexes "\n\x7d\n".toList [.closeBrace] := rfl
  cases members with
  | nil => rfl
  | cons m members =>
    have lines := comma.joined ((m :: members).map fun m =>
        (string m.1 m.2, [.string m.1, .colon, .string m.2])) (by
      intro p mem
      obtain ⟨m, -, rfl⟩ := List.mem_map.1 mem
      exact lexes_string m.1 m.2)
    simpa [frame, Function.comp_def] using (opened.append lines).append closed

/-- The document of any members is read as the object that has them. -/
theorem parse_frame (members : List (Text × Text)) :
    Json.parse (frame (members.map fun m => string m.1 m.2)) =
      some (.object (members.map fun m => (m.1, .string m.2))) := by
  have read := Json.reads_object
    (members.map fun m => (m.1, [Json.Token.string m.2], Json.Value.string m.2)) (by
      intro p mem
      obtain ⟨m, -, rfl⟩ := List.mem_map.1 mem
      exact Json.reads_string m.2)
  apply Json.parse_eq (lexes_frame members)
  simpa [Function.comp_def, Json.memberTokens] using read

end Web

/-- A phrase adds its member to a document for the web, and nothing if it has none. -/
theorem Document.line?_contribution_web {p : Phrase}
    (full : ∀ id text, p.value? id = some text → text.isEmpty = false) (reference language : Text) :
    (contribution .web reference language p).line? =
      (Web.member? language p).map fun m => Web.string m.1 m.2 := by
  rw [line?_contribution full, Web.member?]
  cases p.key.isEmpty
  · cases header : p.isHeader
    · have key : isHeaderKey p.key = false := header
      cases given : p.value? language <;>
        simp [given, Format.line, key, Format.string, Format.normalized, Except.map,
          Except.toOption]
    · have key : isHeaderKey p.key = true := header
      cases given : p.value? reference <;>
        simp [given, Format.line, key, Format.comment, Except.toOption]
  · rfl

theorem Web.members_nodup {strict : Bool} {table : Table} (keys : Keys.InOrder strict table)
    (language : Text) : ((members language table).map (·.1)).Nodup := by
  rw [List.Nodup, List.pairwise_map]
  refine List.Pairwise.filterMap _ ?_ keys.distinct
  intro p q apart m hm n hn
  simp only [member?] at hm hn
  split at hm
  · cases hm
  · rename_i named
    split at hn
    · cases hn
    · obtain ⟨_, -, rfl⟩ := Option.map_eq_some_iff.1 hm
      obtain ⟨_, -, rfl⟩ := Option.map_eq_some_iff.1 hn
      exact apart.resolve_left named

/-- **Web documents decode to the table.** There is one document for each declared language, in
their order. Each is JSON, and reading it gives the members of its language, no name twice. -/
theorem web_documents_decode {s s' : Session} {bytes : Bytes} {table : Table}
    (web : s.platform = .web) (prepared : s.prepare bytes = (s', .ok table)) :
    (s'.render table).2.map (·.language) = s.languages.map (·.id) ∧
    ∀ d ∈ (s'.render table).2,
      Json.parse (d.text .web) =
        some (.object ((Web.members d.language table).map fun m => (m.1, .string m.2))) ∧
      ((Web.members d.language table).map (·.1)).Nodup := by
  obtain ⟨_, _, _, _, _, _, keys, _⟩ := Session.prepare_eq_ok prepared
  refine Session.forall_documents prepared fun l _ => ?_
  have lines : (Document.render s.platform s.options.reference table l).document.lines =
      (Web.members l.id table).map fun m => Web.string m.1 m.2 := by
    rw [web]
    exact Document.lines_render fun p mem =>
      Document.line?_contribution_web (Session.value?_isEmpty_of_prepare prepared mem) _ _
  refine ⟨?_, Web.members_nodup (Keys.check_eq_ok keys) l.id⟩
  rw [Document.text, lines]
  exact Web.parse_frame (Web.members l.id table)

/-- Keys and texts with what JSON must escape, next to rows that have no member. -/
theorem web_documents_decode_escapes :
    let s : Session :=
      { platform := .web, languages := [{ id := "en".toList, destination := "en.json".toList }] }
    let bytes := Utf8.encode <| String.toList
      "key,en\nHeader,Top\n\\,\"a \"\"b\"\"\\\"\n\"q\"\"\",<HTML>\t(c)\r\n,none\n"
    s.platform = .web ∧ ∃ (s' : Session) (table : Table),
      s.prepare bytes = (s', .ok table) ∧
      Web.members "en".toList table =
        [(['\\'], "a \"b\"\\".toList), ("q\"".toList, "\t©".toList)] ∧
      (s'.render table).2.map (·.language) = ["en".toList] ∧
      ∀ d ∈ (s'.render table).2,
        Json.parse (d.text .web) =
          some (.object ((Web.members d.language table).map fun m => (m.1, .string m.2))) ∧
        ((Web.members d.language table).map (·.1)).Nodup := by
  intro s bytes
  have handed : ∃ table ∈ (s.prepare bytes).2.toOption,
      Web.members "en".toList table =
        [(['\\'], "a \"b\"\\".toList), ("q\"".toList, "\t©".toList)] := by decide +kernel
  obtain ⟨s', table, prepared, members⟩ := Session.exists_prepared handed
  exact ⟨rfl, s', table, prepared, members, web_documents_decode rfl prepared⟩

end Phrasebook

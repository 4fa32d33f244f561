import Mathlib.Data.List.TakeWhile
import Phrasebook.Proofs.Encodings
import Phrasebook.Proofs.FailureLog
import Phrasebook.Proofs.FilePaths
import Phrasebook.Proofs.Json

namespace Phrasebook

/-! ## Decimal numbers -/

theorem Text.isDigit_decimal (n : Nat) : ∀ c ∈ Text.decimal n, c.isDigit = true := by
  intro c mem
  exact Nat.isDigit_of_mem_toDigits (by decide) (by decide) mem

/-- No zero stands before the first digit that counts. -/
theorem Text.head?_decimal {n : Nat} (positive : 0 < n) : (Text.decimal n).head? ≠ some '0' := by
  induction n using Nat.strongRecOn with
  | ind n ih =>
    unfold decimal
    by_cases short : n < 10
    · rw [Nat.toDigits_of_lt_base short, List.head?_singleton, ne_eq, Option.some.injEq]
      have nonzero : ∀ d < 10, 0 < d → Nat.digitChar d ≠ '0' := by decide
      exact nonzero n short positive
    · rw [Nat.toDigits_of_base_le (by decide) (by omega),
        List.head?_append_of_ne_nil _ Nat.toDigits_ne_nil]
      exact ih (n / 10) (by omega) (by omega)

theorem Text.decimal_ne_nil (n : Nat) : Text.decimal n ≠ [] := Nat.toDigits_ne_nil

namespace Json

theorem isNumber_decimal (n : Nat) : isNumber (Text.decimal n) = true := by
  have digits := Text.isDigit_decimal n
  have unsigned : (Text.decimal n).head? ≠ some '-' := by
    intro sign
    exact absurd (digits '-' (List.mem_of_head? sign)) (by decide)
  have whole : (Text.decimal n).takeWhile Char.isDigit = Text.decimal n :=
    List.takeWhile_eq_self_iff.2 digits
  have rest : (Text.decimal n).dropWhile Char.isDigit = [] := List.dropWhile_eq_nil_iff.2 digits
  have filled : (Text.decimal n).isEmpty = false := by
    rw [List.isEmpty_eq_false_iff]
    exact Text.decimal_ne_nil n
  have leading : (Text.decimal n == ['0'] || (Text.decimal n).head? != some '0') = true := by
    by_cases zero : n = 0
    · rw [zero]
      rfl
    · rw [bne_iff_ne.2 (Text.head?_decimal (Nat.pos_of_ne_zero zero)), Bool.or_true]
  simp only [isNumber, if_neg unsigned, whole, rest, filled, leading]
  rfl

/-! ## Texts that the next character ends -/

/-- A text that is read as these tokens when something follows that does not go on with a number. -/
def LexesBefore (t : Text) (tokens : List Token) : Prop :=
  ∀ c more state, isNumberChar c = false → lexBetween c = some (more, state) →
    lexer.Reads .between (t ++ [c]) (tokens ++ more) state

theorem reads_between {c : Char} {more : List Token} {state : LexState}
    (begins : lexBetween c = some (more, state)) : lexer.Reads .between [c] more state := by
  simp [Scanner.Reads, Scanner.run, lexer, lexStep, begins]

theorem Lexes.before {t : Text} {tokens : List Token} (h : Lexes t tokens) :
    LexesBefore t tokens := by
  intro c more state _ begins
  exact h.append (reads_between begins)

theorem LexesBefore.after {x t : Text} {first tokens : List Token} (h : LexesBefore t tokens)
    (start : Lexes x first) : LexesBefore (x ++ t) (first ++ tokens) := by
  intro c more state other begins
  rw [List.append_assoc, List.append_assoc]
  exact start.append (h c more state other begins)

theorem reads_digits {digits : Text} (all : ∀ c ∈ digits, c.isDigit = true) (read : Text) :
    lexer.Reads (.number read) digits [] (.number (digits.reverse ++ read)) := by
  induction digits generalizing read with
  | nil => rfl
  | cons d digits ih =>
    obtain ⟨one, rest⟩ := List.forall_mem_cons.1 all
    have goes : isNumberChar d = true := by
      rw [isNumberChar, one]
      rfl
    have step : lexer.step (.number read) d = some ([], .number (d :: read)) := if_pos goes
    have next := ih rest (d :: read)
    rw [List.reverse_cons, List.append_assoc]
    exact next.cons step

theorem lexBetween_digit {d : Char} (digit : d.isDigit = true) :
    lexBetween d = some ([], .number [d]) := by
  have other {c : Char} (no : c.isDigit = false) : d ≠ c := by
    rintro rfl
    rw [no] at digit
    cases digit
  have space : isSpace d = false := by
    simp [isSpace, other (c := ' ') rfl, other (c := '\t') rfl, other (c := '\n') rfl,
      other (c := '\r') rfl]
  simp [lexBetween, space, other (c := '"') rfl, digit]

theorem lexesBefore_decimal (n : Nat) :
    LexesBefore (Text.decimal n) [.number (Text.decimal n)] := by
  intro c more state other begins
  have digits := Text.isDigit_decimal n
  have number := isNumber_decimal n
  obtain ⟨d, rest, decimal⟩ := List.exists_cons_of_ne_nil (Text.decimal_ne_nil n)
  rw [decimal] at digits number ⊢
  obtain ⟨first, later⟩ := List.forall_mem_cons.1 digits
  have opened : lexer.Reads .between [d] [] (.number [d]) := reads_between (lexBetween_digit first)
  have read : lexer.Reads .between (d :: rest) [] (.number (d :: rest).reverse) := by
    rw [List.reverse_cons]
    exact opened.append (reads_digits later [d])
  have token : numberToken (d :: rest).reverse = some (.number (d :: rest)) := by
    rw [numberToken, List.reverse_reverse, if_pos number]
  have ended : lexer.step (.number (d :: rest).reverse) c =
      some (.number (d :: rest) :: more, state) := by
    change lexStep (.number (d :: rest).reverse) c = _
    rw [lexStep, if_neg (by simp [other]), token, begins]
    rfl
  exact read.append (Scanner.Reads.single ended)

/-- Pieces with commas between them, each of which ends where its comma begins. -/
theorem LexesBefore.joined {separator : Text} (blank : Lexes separator [])
    (pieces : List (Text × List Token)) (h : ∀ p ∈ pieces, LexesBefore p.1 p.2) :
    LexesBefore (Text.joined (',' :: separator) (pieces.map (·.1)))
      ([Token.comma].intercalate (pieces.map (·.2))) := by
  induction pieces with
  | nil =>
    have nothing : Lexes [] [] := rfl
    exact nothing.before
  | cons p pieces ih =>
    have first := h p List.mem_cons_self
    have rest := ih fun q mem => h q (List.mem_cons_of_mem _ mem)
    cases pieces with
    | nil => simpa [Text.joined] using first
    | cons q pieces =>
      have comma : Lexes (p.1 ++ [',']) (p.2 ++ [.comma]) := first ',' [.comma] .between rfl rfl
      have start : Lexes (p.1 ++ ',' :: separator) (p.2 ++ [.comma]) := by
        simpa using comma.append blank
      simpa [Text.joined, List.intercalate_cons_cons] using rest.after start

inductive Scalar
  | text (t : Text)
  | natural (n : Nat)

namespace Scalar

def written : Scalar → Text
  | text t => quoted t
  | natural n => Text.decimal n

def token : Scalar → Token
  | text t => .string t
  | natural n => .number (Text.decimal n)

def value : Scalar → Value
  | text t => .string t
  | natural n => .number (Text.decimal n)

theorem lexesBefore (s : Scalar) : LexesBefore s.written [s.token] := by
  cases s with
  | text t => exact (lexes_quoted t).before
  | natural n => exact lexesBefore_decimal n

theorem reads (s : Scalar) : Reads [s.token] s.value := by
  intro stack rest
  cases s <;> rfl

end Scalar

/-! ## Values as they are asked for -/

namespace Value

def text? : Value → Option Text
  | .string t => some t
  | _ => none

def natural? : Value → Option Nat
  | .number literal =>
    if literal.all Char.isDigit then some (Nat.ofDigitChars 10 literal 0) else none
  | _ => none

def member? (name : String) : Value → Option Value
  | .object members => (members.find? (·.1 == name.toList)).map (·.2)
  | _ => none

end Value

theorem natural?_decimal (n : Nat) : Value.natural? (.number (Text.decimal n)) = some n := by
  have digits : (Text.decimal n).all Char.isDigit = true :=
    List.all_eq_true.2 (Text.isDigit_decimal n)
  have value : Nat.ofDigitChars 10 (Text.decimal n) 0 = n :=
    Nat.ofDigitChars_toDigits (by decide) (by decide)
  rw [Value.natural?, if_pos digits, value]

end Json

/-! ## Diagnostics -/

def Severity.ofName? (name : Text) : Option Severity :=
  if name = Severity.warning.name then some .warning
  else if name = Severity.error.name then some .error
  else none

namespace Report

open Json

def fields (d : Diagnostic) : List (Text × Scalar) :=
  [("severity".toList, .text d.severity.name)]
    ++ (d.row.toList.map fun row => ("row".toList, .natural row))
    ++ (d.language.toList.map fun language => ("language".toList, .text language))
    ++ [("message".toList, .text d.message)]

def object (d : Diagnostic) : Json.Value := .object ((fields d).map fun m => (m.1, m.2.value))

/-- The diagnostic that an object stands for. A row and a language may be missing, but have to be
such if they are there. -/
def diagnostic? (v : Json.Value) : Option Diagnostic := do
  let severity ← ((v.member? "severity").bind Value.text?).bind Severity.ofName?
  let row ← (v.member? "row").mapM Value.natural?
  let language ← (v.member? "language").mapM Value.text?
  let message ← (v.member? "message").bind Value.text?
  return { severity := severity, row := row, language := language, message := message }

def diagnostics? : Json.Value → Option Diagnostics
  | .array items => items.mapM diagnostic?
  | _ => none

theorem members_eq (d : Diagnostic) : members d = (fields d).map fun m => (m.1, m.2.written) := by
  simp [members, fields, Scalar.written, Function.comp_def]

theorem lexesBefore_member (m : Text × Scalar) :
    LexesBefore (member (m.1, m.2.written)) (memberTokens (m.1, [m.2.token], m.2.value)) := by
  have indent : Lexes "    ".toList [] := rfl
  have colon : Lexes ": ".toList [.colon] := rfl
  exact m.2.lexesBefore.after ((indent.append (lexes_quoted m.1)).append colon)

def objectTokens (d : Diagnostic) : List Token :=
  .openBrace :: [Token.comma].intercalate
    ((fields d).map fun m => memberTokens (m.1, [m.2.token], m.2.value)) ++ [.closeBrace]

theorem lexes_item (d : Diagnostic) : Lexes (item d) (objectTokens d) := by
  have opened : Lexes "  \x7b\n".toList [.openBrace] := rfl
  have blank : Lexes ['\n'] [] := rfl
  have closed : Lexes "  \x7d".toList [.closeBrace] := rfl
  have parts := LexesBefore.joined blank ((fields d).map fun m =>
      (member (m.1, m.2.written), memberTokens (m.1, [m.2.token], m.2.value))) (by
    intro p mem
    obtain ⟨m, -, rfl⟩ := List.mem_map.1 mem
    exact lexesBefore_member m)
  have ended := parts '\n' [] .between rfl rfl
  have whole := (opened.append ended).append closed
  simpa [item, objectTokens, members_eq, Function.comp_def] using whole

theorem reads_object_fields (d : Diagnostic) : Reads (objectTokens d) (object d) := by
  have read := reads_object ((fields d).map fun m => (m.1, [m.2.token], m.2.value)) (by
    intro p mem
    obtain ⟨m, -, rfl⟩ := List.mem_map.1 mem
    exact m.2.reads)
  simpa [objectTokens, object, Function.comp_def] using read

theorem lexes_text (ds : Diagnostics) :
    Lexes (text ds ++ ['\n'])
      (.openBracket :: [Token.comma].intercalate (ds.map objectTokens) ++ [.closeBracket]) := by
  have opened : Lexes "[\n".toList [.openBracket] := rfl
  have comma : Lexes ",\n".toList [.comma] := rfl
  have closed : Lexes "\n]\n".toList [.closeBracket] := rfl
  cases ds with
  | nil => rfl
  | cons d ds =>
    have items := comma.joined ((d :: ds).map fun d => (item d, objectTokens d)) (by
      intro p mem
      obtain ⟨d, -, rfl⟩ := List.mem_map.1 mem
      exact lexes_item d)
    simpa [text, Function.comp_def] using (opened.append items).append closed

/-- A report is read as the array of the objects of its diagnostics. -/
theorem parse_text (ds : Diagnostics) :
    Json.parse (text ds ++ ['\n']) = some (.array (ds.map object)) := by
  have read := reads_array (ds.map fun d => (objectTokens d, object d)) (by
      intro i mem
      obtain ⟨d, -, rfl⟩ := List.mem_map.1 mem
      exact reads_object_fields d) (by
      intro i mem
      obtain ⟨d, -, rfl⟩ := List.mem_map.1 mem
      exact ⟨.openBrace, nofun, _, rfl⟩)
  apply Json.parse_eq (lexes_text ds)
  simpa [Function.comp_def] using read

theorem ofName?_name (s : Severity) : Severity.ofName? s.name = some s := by
  cases s <;> decide

theorem member?_object (d : Diagnostic) :
    (object d).member? "severity" = some (.string d.severity.name) ∧
    (object d).member? "row" = d.row.map (fun row => .number (Text.decimal row)) ∧
    (object d).member? "language" = d.language.map .string ∧
    (object d).member? "message" = some (.string d.message) := by
  obtain ⟨severity, row, language, message⟩ := d
  refine ⟨rfl, ?_, ?_, ?_⟩
  · cases row <;> cases language <;> rfl
  · cases row <;> cases language <;> rfl
  · cases row <;> cases language <;> rfl

theorem diagnostic?_object (d : Diagnostic) : diagnostic? (object d) = some d := by
  obtain ⟨first, second, third, last⟩ := member?_object d
  unfold diagnostic?
  rw [first, second, third, last]
  clear first second third last
  obtain ⟨severity, row, language, message⟩ := d
  simp only [Option.bind_some, Value.text?, ofName?_name]
  cases row <;> cases language <;> simp [Value.text?, natural?_decimal]

theorem diagnostics?_objects (ds : Diagnostics) :
    diagnostics? (.array (ds.map object)) = some ds := by
  unfold diagnostics?
  induction ds with
  | nil => rfl
  | cons d ds ih => simp [diagnostic?_object, ih]

/-- **A report gives back every diagnostic.** Whatever the diagnostics say, the text that is written
is JSON, and it is read as an array with an object for each diagnostic in its place: severity and
message, a row if one was recorded, a language if one was recorded, and nothing else. From these the
diagnostics are had again as they were. When a report has been written, its file holds this text. -/
theorem reports_read_back (ds : Diagnostics) :
    Json.parse (text ds ++ ['\n']) = some (.array (ds.map object)) ∧
    diagnostics? (.array (ds.map object)) = some ds ∧
    ∀ (path : Path) (run : Command.Run), Command.reportError? (some path) ds run.files = none →
      ∃ bytes, (Command.writeReport (some path) ds run).files.read path = .ok bytes ∧
        Utf8.decode bytes = .ok (text ds ++ ['\n']) := by
  refine ⟨parse_text ds, diagnostics?_objects ds, fun path run good => ?_⟩
  refine ⟨_, ?_, Utf8.decode_encode _⟩
  cases written : run.files.write path (Utf8.encode (text ds ++ ['\n'])) with
  | error cause => simp [Command.reportError?, written] at good
  | ok after =>
    rw [Command.writeReport, written]
    exact FileSystem.read_of_write written

/-- Texts with what JSON must escape, and an empty one, with and without a row and a language. -/
theorem reports_read_back_of_odd_texts :
    let ds : Diagnostics :=
      [{ severity := .warning, row := some 10, message := "\"a\\\n\x01\u00e9".toList },
        { severity := .error, language := some "\t\"".toList, message := [] }]
    let run : Command.Run := { files := { home := [] } }
    Command.reportError? (some "r".toList) ds run.files = none ∧
      Json.parse (text ds ++ ['\n']) = some (.array (ds.map object)) ∧
      diagnostics? (.array (ds.map object)) = some ds ∧
      ∃ bytes, (Command.writeReport (some "r".toList) ds run).files.read "r".toList = .ok bytes ∧
        Utf8.decode bytes = .ok (text ds ++ ['\n']) := by
  intro ds run
  have good : Command.reportError? (some "r".toList) ds run.files = none := by rfl
  obtain ⟨parsed, same, stored⟩ := reports_read_back ds
  exact ⟨good, parsed, same, stored _ run good⟩

end Report

end Phrasebook

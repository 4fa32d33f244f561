import Phrasebook.Json.Quoted
import Phrasebook.Proofs.Scanner

/-!
# Reading JSON

A reader of JSON texts, so that what is written can be read back. It works in two passes, each a
recursion on its input: characters become tokens, and tokens become a value with a stack of the
arrays and objects that are still open. Members keep their order, and a name that occurs twice is
kept twice.

`lexes_quoted` says that a written string is read as the text it was written from, whatever that
text is, and `reads_object` and `reads_array` that an object is read as its members and an array as
its items.
-/

namespace Phrasebook.Json

inductive Token
  | openBrace
  | closeBrace
  | openBracket
  | closeBracket
  | colon
  | comma
  | string (text : Text)
  | number (literal : Text)
  /-- One of the names `true`, `false` and `null`. -/
  | word (name : Text)
deriving Repr, DecidableEq

/-! ## From characters to tokens -/

/-- How far a token has been read. What has been read of it stands with the last character in
front. -/
inductive LexState
  | between
  | string (read : Text)
  | escape (read : Text)
  /-- In the four digits of a code unit; `high` is the first half of a pair, if this is the
  second. -/
  | unit (read : Text) (high : Option Nat) (digits : List Nat)
  | half (read : Text) (high : Nat)
  /-- The backslash before the second half has been read. -/
  | halfEscape (read : Text) (high : Nat)
  | number (read : Text)
  | word (read : Text)
deriving Repr, DecidableEq

def isSpace (c : Char) : Bool := c == ' ' || c == '\t' || c == '\n' || c == '\r'

def punctuation? (c : Char) : Option Token :=
  if c = '\x7b' then some .openBrace
  else if c = '\x7d' then some .closeBrace
  else if c = '[' then some .openBracket
  else if c = ']' then some .closeBracket
  else if c = ':' then some .colon
  else if c = ',' then some .comma
  else none

def unescape? (c : Char) : Option Char :=
  if c = '"' || c = '\\' || c = '/' then some c
  else if c = 'b' then some '\x08'
  else if c = 'f' then some '\x0c'
  else if c = 'n' then some '\n'
  else if c = 'r' then some '\r'
  else if c = 't' then some '\t'
  else none

def hexValue? (c : Char) : Option Nat :=
  if c.isDigit then some (c.toNat - 48)
  else if 'a' ≤ c ∧ c ≤ 'f' then some (c.toNat - 87)
  else if 'A' ≤ c ∧ c ≤ 'F' then some (c.toNat - 55)
  else none

def isHighHalf (n : Nat) : Bool := 0xD800 ≤ n && n < 0xDC00

def isLowHalf (n : Nat) : Bool := 0xDC00 ≤ n && n < 0xE000

/-- A code unit that is complete: a character, or one half of a pair. A half without its other half
is an error. -/
def afterUnit (read : Text) (high : Option Nat) (n : Nat) : Option LexState :=
  match high with
  | none =>
    if isHighHalf n then some (.half read n)
    else if isLowHalf n then none
    else some (.string (Char.ofNat n :: read))
  | some high =>
    if isLowHalf n then
      some (.string (Char.ofNat (0x10000 + (high - 0xD800) * 0x400 + (n - 0xDC00)) :: read))
    else none

def isNumberChar (c : Char) : Bool :=
  c.isDigit || c == '-' || c == '+' || c == '.' || c == 'e' || c == 'E'

/-- An exponent, or nothing. -/
def isExponent : Text → Bool
  | [] => true
  | e :: t =>
    let digits := if t.head? = some '+' ∨ t.head? = some '-' then t.tail else t
    (e == 'e' || e == 'E') && !digits.isEmpty && digits.all Char.isDigit

/-- What may follow the whole part of a number: a fraction, an exponent, both or nothing. -/
def isFraction : Text → Bool
  | '.' :: t => (t.head?.any Char.isDigit) && isExponent (t.dropWhile Char.isDigit)
  | t => isExponent t

/-- Whether characters are a number: a whole part without a needless zero in front, and then a
fraction and an exponent if there are such. -/
def isNumber (t : Text) : Bool :=
  let t := if t.head? = some '-' then t.tail else t
  let whole := t.takeWhile Char.isDigit
  !whole.isEmpty && (whole == ['0'] || whole.head? != some '0')
    && isFraction (t.dropWhile Char.isDigit)

def numberToken (read : Text) : Option Token :=
  if isNumber read.reverse then some (.number read.reverse) else none

def lexBetween (c : Char) : Option (List Token × LexState) :=
  if isSpace c then some ([], .between)
  else if c = '"' then some ([], .string [])
  else if c.isDigit || c == '-' then some ([], .number [c])
  else if c.isLower then some ([], .word [c])
  else (punctuation? c).map fun token => ([token], .between)

/-- One character read: the tokens it ends, and what is being read after it. -/
def lexStep : LexState → Char → Option (List Token × LexState)
  | .between, c => lexBetween c
  | .string read, c =>
    if c = '"' then some ([.string read.reverse], .between)
    else if c = '\\' then some ([], .escape read)
    else if c.toNat < 0x20 then none
    else some ([], .string (c :: read))
  | .escape read, c =>
    if c = 'u' then some ([], .unit read none [])
    else (unescape? c).map fun meant => ([], .string (meant :: read))
  | .unit read high digits, c => do
    let digits := digits ++ [← hexValue? c]
    if digits.length < 4 then return ([], .unit read high digits)
    else return ([], ← afterUnit read high (digits.foldl (fun n d => n * 16 + d) 0))
  | .half read high, c => if c = '\\' then some ([], .halfEscape read high) else none
  | .halfEscape read high, c => if c = 'u' then some ([], .unit read (some high) []) else none
  | .number read, c =>
    if isNumberChar c then some ([], .number (c :: read))
    else do
      let token ← numberToken read
      let (tokens, state) ← lexBetween c
      return (token :: tokens, state)
  | .word read, c =>
    if c.isLower then some ([], .word (c :: read))
    else do
      let (tokens, state) ← lexBetween c
      return (.word read.reverse :: tokens, state)

/-- The token that the end of the text ends, if the text may end there. -/
def lexEnd : LexState → Option (List Token)
  | .between => some []
  | .number read => (numberToken read).map ([·])
  | .word read => some [.word read.reverse]
  | _ => none

def lexer : Scanner LexState Token := ⟨.between, lexStep, lexEnd⟩

/-! ## From tokens to a value -/

/-- A JSON value. A number is kept as it is written. -/
inductive Value
  | null
  | bool (value : Bool)
  | number (literal : Text)
  | string (text : Text)
  | array (items : List Value)
  | object (members : List (Text × Value))

/-- An array or object that is still open, with what it holds so far, the last in front; in an
object the name of the next member has been read. -/
inductive Frame
  | array (items : List Value)
  | object (members : List (Text × Value)) (name : Text)

/-- What may come next, and what is still open. -/
inductive ParseState
  | value (stack : List Frame)
  /-- The first item of an array, or its end. -/
  | first (stack : List Frame)
  /-- The name of a member. An object may end here only while it has no member. -/
  | name (stack : List Frame) (members : List (Text × Value))
  | colon (stack : List Frame) (members : List (Text × Value)) (name : Text)
  | after (stack : List Frame) (value : Value)

def wordValue? (name : Text) : Option Value :=
  if name = "null".toList then some .null
  else if name = "true".toList then some (.bool true)
  else if name = "false".toList then some (.bool false)
  else none

def parseValue (stack : List Frame) : Token → Option ParseState
  | .openBrace => some (.name stack [])
  | .openBracket => some (.first stack)
  | .string text => some (.after stack (.string text))
  | .number literal => some (.after stack (.number literal))
  | .word name => (wordValue? name).map (.after stack)
  | _ => none

def parseStep : ParseState → Token → Option ParseState
  | .value stack, token => parseValue stack token
  | .first stack, .closeBracket => some (.after stack (.array []))
  | .first stack, token => parseValue (.array [] :: stack) token
  | .name stack members, .string name => some (.colon stack members name)
  | .name stack [], .closeBrace => some (.after stack (.object []))
  | .colon stack members name, .colon => some (.value (.object members name :: stack))
  | .after (.array items :: stack) v, .comma => some (.value (.array (v :: items) :: stack))
  | .after (.array items :: stack) v, .closeBracket =>
    some (.after stack (.array (v :: items).reverse))
  | .after (.object members name :: stack) v, .comma => some (.name stack ((name, v) :: members))
  | .after (.object members name :: stack) v, .closeBrace =>
    some (.after stack (.object ((name, v) :: members).reverse))
  | _, _ => none

def ParseState.result? : ParseState → Option Value
  | .after [] v => some v
  | _ => none

/-- The value that a text stands for, if it is JSON. -/
def parse (t : Text) : Option Value := do
  let tokens ← lexer.read t
  (← tokens.foldlM parseStep (.value [])).result?

/-! ## What is written is read back -/

/-- A text between two tokens that is read as these tokens. -/
abbrev Lexes (t : Text) (tokens : List Token) : Prop := lexer.Reads .between t tokens .between

theorem hexValue?_digitChar : ∀ d < 16, hexValue? (Nat.digitChar d) = some d := by decide

theorem reads_control (read : Text) {c : Char} (low : c.toNat < 0x20) :
    lexer.Reads (.string read)
      ['\\', 'u', '0', '0', Nat.digitChar (c.toNat / 16), Nat.digitChar (c.toNat % 16)] []
      (.string (c :: read)) := by
  have high := hexValue?_digitChar (c.toNat / 16) (by omega)
  have last := hexValue?_digitChar (c.toNat % 16) (by omega)
  have value : c.toNat / 16 * 16 + c.toNat % 16 = c.toNat := by omega
  have whole : isHighHalf c.toNat = false ∧ isLowHalf c.toNat = false := by
    simp only [isHighHalf, isLowHalf, Bool.and_eq_false_iff, decide_eq_false_iff_not]
    omega
  have zero : hexValue? '0' = some 0 := by decide
  simp [Scanner.Reads, Scanner.run, lexer, lexStep, zero, high, last, afterUnit, value, whole]

theorem reads_escapeChar (read : Text) (c : Char) :
    lexer.Reads (.string read) (escapeChar c) [] (.string (c :: read)) := by
  unfold escapeChar
  split
  · subst c; rfl
  split
  · subst c; rfl
  split
  · subst c; rfl
  split
  · subst c; rfl
  split
  · subst c; rfl
  split
  · subst c; rfl
  split
  · subst c; rfl
  split
  · exact reads_control read ‹_›
  · rename_i quote backslash _ _ _ _ _ high
    simp [Scanner.Reads, Scanner.run, lexer, lexStep, quote, backslash, high]

theorem reads_escaped (read t : Text) :
    lexer.Reads (.string read) (t.flatMap escapeChar) [] (.string (t.reverse ++ read)) := by
  induction t generalizing read with
  | nil => rfl
  | cons c t ih => simpa using (reads_escapeChar read c).append (ih (c :: read))

theorem lexes_quoted (t : Text) : Lexes (quoted t) [.string t] := by
  have opened : lexer.Reads .between ['"'] [] (.string []) := rfl
  have closed : lexer.Reads (.string (t.reverse ++ [])) ['"'] [.string t] .between := by
    simp [Scanner.Reads, Scanner.run, lexer, lexStep]
  exact (opened.append (reads_escaped [] t)).append closed

theorem Lexes.joined {separator : Text} (comma : Lexes separator [.comma])
    (pieces : List (Text × List Token)) (h : ∀ p ∈ pieces, Lexes p.1 p.2) :
    Lexes (Text.joined separator (pieces.map (·.1)))
      ([Token.comma].intercalate (pieces.map (·.2))) := by
  induction pieces with
  | nil => rfl
  | cons p pieces ih =>
    have first := h p List.mem_cons_self
    have rest := ih fun q mem => h q (List.mem_cons_of_mem _ mem)
    cases pieces with
    | nil => simpa [Text.joined] using first
    | cons q pieces =>
      simpa [Text.joined, List.intercalate_cons_cons] using first.append (comma.append rest)

/-- Wherever a value may stand, the tokens are read as this one. -/
def Reads (tokens : List Token) (v : Value) : Prop :=
  ∀ stack rest, (tokens ++ rest).foldlM parseStep (.value stack) =
    rest.foldlM parseStep (.after stack v)

theorem reads_string (t : Text) : Reads [.string t] (.string t) := by
  intro stack rest
  rfl

def memberTokens (m : Text × List Token × Value) : List Token := .string m.1 :: .colon :: m.2.1

theorem foldlM_memberTokens {m : Text × List Token × Value} (h : Reads m.2.1 m.2.2)
    (stack : List Frame) (read : List (Text × Value)) (rest : List Token) :
    (memberTokens m ++ rest).foldlM parseStep (.name stack read) =
      rest.foldlM parseStep (.after (.object read m.1 :: stack) m.2.2) := by
  simp only [memberTokens, List.cons_append, List.foldlM_cons, parseStep, bind, Option.bind_some]
  exact h _ _

/-- The members after the first, from the end of the one before. -/
theorem foldlM_members {members : List (Text × List Token × Value)}
    (h : ∀ m ∈ members, Reads m.2.1 m.2.2) (stack : List Frame) (read : List (Text × Value))
    (name : Text) (v : Value) (rest : List Token) :
    ((members.flatMap fun m => .comma :: memberTokens m) ++ .closeBrace :: rest).foldlM parseStep
        (.after (.object read name :: stack) v) =
      rest.foldlM parseStep
        (.after stack
          (.object (((name, v) :: read).reverse ++ members.map fun m => (m.1, m.2.2)))) := by
  induction members generalizing read name v with
  | nil => simp [List.foldlM_cons, parseStep]
  | cons m members ih =>
    have first := foldlM_memberTokens (h m List.mem_cons_self) stack ((name, v) :: read)
    have others := ih (fun n mem => h n (List.mem_cons_of_mem _ mem)) ((name, v) :: read) m.1 m.2.2
    rw [List.flatMap_cons]
    simp only [List.cons_append, List.append_assoc, List.foldlM_cons, parseStep, bind,
      Option.bind_some]
    rw [first, others]
    simp

theorem intercalate_comma (first : List Token) (more : List (List Token)) :
    [Token.comma].intercalate (first :: more) = first ++ more.flatMap (.comma :: ·) := by
  induction more generalizing first with
  | nil => simp
  | cons next more ih => rw [List.intercalate_cons_cons, ih]; simp

theorem reads_object (members : List (Text × List Token × Value))
    (h : ∀ m ∈ members, Reads m.2.1 m.2.2) :
    Reads (.openBrace :: [Token.comma].intercalate (members.map memberTokens) ++ [.closeBrace])
      (.object (members.map fun m => (m.1, m.2.2))) := by
  intro stack rest
  cases members with
  | nil => rfl
  | cons m members =>
    have first := foldlM_memberTokens (h m List.mem_cons_self) stack []
    have others := foldlM_members (fun n mem => h n (List.mem_cons_of_mem _ mem)) stack [] m.1
      m.2.2 rest
    rw [List.map_cons, intercalate_comma, List.flatMap_map]
    simp only [List.cons_append, List.append_assoc, List.foldlM_cons, parseStep, parseValue, bind,
      Option.bind_some, List.nil_append]
    rw [first, others]
    rfl

/-- The items after the first, from the end of the one before. -/
theorem foldlM_items {items : List (List Token × Value)} (h : ∀ i ∈ items, Reads i.1 i.2)
    (stack : List Frame) (read : List Value) (v : Value) (rest : List Token) :
    ((items.flatMap fun i => .comma :: i.1) ++ .closeBracket :: rest).foldlM parseStep
        (.after (.array read :: stack) v) =
      rest.foldlM parseStep (.after stack (.array ((v :: read).reverse ++ items.map (·.2)))) := by
  induction items generalizing read v with
  | nil => simp [List.foldlM_cons, parseStep]
  | cons i items ih =>
    have first := h i List.mem_cons_self (.array (v :: read) :: stack)
    have others := ih (fun j mem => h j (List.mem_cons_of_mem _ mem)) (v :: read) i.2
    rw [List.flatMap_cons]
    simp only [List.cons_append, List.append_assoc, List.foldlM_cons, parseStep, bind,
      Option.bind_some]
    rw [first, others]
    simp

/-- Where the first item may stand, a value that does not begin with a bracket that closes is that
item. -/
theorem foldlM_first {first : Token} (opens : first ≠ .closeBracket) (tokens : List Token)
    (stack : List Frame) :
    (first :: tokens).foldlM parseStep (.first stack) =
      (first :: tokens).foldlM parseStep (.value (.array [] :: stack)) := by
  cases first with
  | closeBracket => exact absurd rfl opens
  | _ => rfl

theorem reads_array (items : List (List Token × Value)) (h : ∀ i ∈ items, Reads i.1 i.2)
    (opens : ∀ i ∈ items, ∃ first ≠ .closeBracket, ∃ more, i.1 = first :: more) :
    Reads (.openBracket :: [Token.comma].intercalate (items.map (·.1)) ++ [.closeBracket])
      (.array (items.map (·.2))) := by
  intro stack rest
  cases items with
  | nil => rfl
  | cons i items =>
    obtain ⟨first, other, more, tokens⟩ := opens i List.mem_cons_self
    have one := h i List.mem_cons_self (.array [] :: stack)
    have others := foldlM_items (fun j mem => h j (List.mem_cons_of_mem _ mem)) stack [] i.2 rest
    rw [List.map_cons, intercalate_comma, List.flatMap_map]
    simp only [List.cons_append, List.append_assoc, List.foldlM_cons, parseStep, parseValue, bind,
      Option.bind_some, List.nil_append]
    rw [tokens] at one ⊢
    rw [List.cons_append, foldlM_first other, ← List.cons_append, one, others]
    rfl

theorem parse_eq {t : Text} {tokens : List Token} {v : Value} (written : Lexes t tokens)
    (read : Reads tokens v) : parse t = some v := by
  have run := read [] []
  rw [List.append_nil] at run
  have lexed : lexer.read t = some tokens := by
    simpa using Scanner.read_eq written rfl
  simp only [parse, lexed, bind, Option.bind_some, run, List.foldlM_nil, pure]
  rfl

end Phrasebook.Json

import Phrasebook.Proofs.Scanner
import Phrasebook.Text.Blank

/-!
# Reading XML

A tokenizer for XML documents: a declaration ends at the first `?>`, a comment at the first `-->`, a
tag at the first `>` outside double quotes, and text at the next `<`. Each token is taken as it
stands, and nothing is resolved. The lemmas say how each kind of token is read to its end.
-/

namespace Phrasebook.Xml

inductive Token
  | declaration (content : Text)
  | comment (content : Text)
  | startTag (name : Text) (attributes : List (Text × Text))
  | endTag (name : Text)
  | text (content : Text)
deriving Repr, DecidableEq

/-! ## Tags -/

inductive AttributeState
  | between
  | name (read : Text)
  | equals (name : Text)
  | value (name read : Text)
deriving Repr, DecidableEq

/-- The attributes in the rest of a tag: names with values in double quotes, apart by blanks. -/
def attributesFrom : AttributeState → Text → Option (List (Text × Text))
  | .between, [] => some []
  | .between, c :: t =>
    if isBlank c then attributesFrom .between t else attributesFrom (.name [c]) t
  | .name read, c :: t =>
    if c = '=' then attributesFrom (.equals read.reverse) t
    else attributesFrom (.name (c :: read)) t
  | .equals name, c :: t => if c = '"' then attributesFrom (.value name []) t else none
  | .value name read, c :: t =>
    if c = '"' then (attributesFrom .between t).map ((name, read.reverse) :: ·)
    else attributesFrom (.value name (c :: read)) t
  | _, [] => none

/-- The token of a tag, from what stands between its angle brackets. -/
def tagToken? : Text → Option Token
  | '/' :: name => some (.endTag name)
  | content =>
    (attributesFrom .between (content.dropWhile (!isBlank ·))).map
      (.startTag (content.takeWhile (!isBlank ·)) ·)

theorem attributesFrom_value (name read value rest : Text) (h : '"' ∉ value) :
    attributesFrom (.value name read) (value ++ '"' :: rest) =
      (attributesFrom .between rest).map ((name, read.reverse ++ value) :: ·) := by
  induction value generalizing read with
  | nil => simp [attributesFrom]
  | cons c value ih =>
    obtain ⟨quote, h⟩ := not_or.1 (mt List.mem_cons.2 h)
    rw [List.cons_append, attributesFrom, if_neg (Ne.symm quote), ih _ h]
    simp

/-! ## Tokens -/

/-- How far a token has been read. What has been read of it stands with the last character in
front. -/
inductive State
  | text (read : Text)
  /-- After `<`. -/
  | opened
  /-- After `<!`. -/
  | bang
  /-- After `<!-`. -/
  | dash
  | declaration (read : Text)
  | comment (read : Text)
  | tag (read : Text) (quoted : Bool)
deriving Repr, DecidableEq

def textTokens (content : Text) : List Token := if content.isEmpty then [] else [.text content]

def tagStep (read : Text) (quoted : Bool) (c : Char) : Option (List Token × State) :=
  if c = '>' && !quoted then (tagToken? read.reverse).map fun token => ([token], .text [])
  else some ([], .tag (c :: read) (quoted ^^ (c == '"')))

def step : State → Char → Option (List Token × State)
  | .text read, c =>
    if c = '<' then some (textTokens read.reverse, .opened) else some ([], .text (c :: read))
  | .opened, c =>
    if c = '?' then some ([], .declaration [])
    else if c = '!' then some ([], .bang)
    else tagStep [] false c
  | .bang, c => if c = '-' then some ([], .dash) else tagStep ['!'] false c
  | .dash, c => if c = '-' then some ([], .comment []) else tagStep ['-', '!'] false c
  | .declaration read, c =>
    if c = '>' && read.head? == some '?' then
      some ([.declaration read.tail.reverse], .text [])
    else some ([], .declaration (c :: read))
  | .comment read, c =>
    if c = '>' && ['-', '-'].isPrefixOf read then
      some ([.comment (read.drop 2).reverse], .text [])
    else some ([], .comment (c :: read))
  | .tag read quoted, c => tagStep read quoted c

/-- A document may end only in text. -/
def finish : State → Option (List Token)
  | .text read => some (textTokens read.reverse)
  | _ => none

def tokenizer : Scanner State Token := ⟨.text [], step, finish⟩

def tokens (t : Text) : Option (List Token) := tokenizer.read t

theorem reads_text {x : Text} (h : '<' ∉ x) (read : Text) :
    tokenizer.Reads (.text read) x [] (.text (x.reverse ++ read)) := by
  induction x generalizing read with
  | nil => rfl
  | cons c x ih =>
    obtain ⟨bracket, h⟩ := not_or.1 (mt List.mem_cons.2 h)
    have one : tokenizer.step (.text read) c = some ([], .text (c :: read)) := by
      simp [tokenizer, step, Ne.symm bracket]
    simpa using (ih h (c :: read)).cons one

theorem reads_quoted {x : Text} (h : '"' ∉ x) (read : Text) :
    tokenizer.Reads (.tag read true) x [] (.tag (x.reverse ++ read) true) := by
  induction x generalizing read with
  | nil => rfl
  | cons c x ih =>
    obtain ⟨quote, h⟩ := not_or.1 (mt List.mem_cons.2 h)
    have one : tokenizer.step (.tag read true) c = some ([], .tag (c :: read) true) := by
      simp [tokenizer, step, tagStep, Ne.symm quote]
    simpa using (ih h (c :: read)).cons one

theorem reads_tagEnd {read : Text} {token : Token} (h : tagToken? read.reverse = some token) :
    tokenizer.Reads (.tag read false) ['>'] [token] (.text []) := by
  simp [Scanner.Reads, Scanner.run, tokenizer, step, tagStep, h]

/-- A comment goes on as long as there are no two dashes in a row. -/
theorem reads_comment {x : Text} {read : Text} (h : ¬ ['-', '-'] <:+: read.reverse ++ x) :
    tokenizer.Reads (.comment read) x [] (.comment (x.reverse ++ read)) := by
  induction x generalizing read with
  | nil => rfl
  | cons c x ih =>
    have begun : ['-', '-'].isPrefixOf read = false := by
      rw [Bool.eq_false_iff]
      intro dashes
      obtain ⟨rest, rfl⟩ := List.isPrefixOf_iff_prefix.1 dashes
      exact h ⟨rest.reverse, c :: x, by simp⟩
    have one : tokenizer.step (.comment read) c = some ([], .comment (c :: read)) := by
      simp [tokenizer, step, begun]
    have rest : ¬ ['-', '-'] <:+: (c :: read).reverse ++ x := by simpa using h
    simpa using (ih rest).cons one

theorem reads_commentEnd (read : Text) :
    tokenizer.Reads (.comment read) "-->".toList [.comment read.reverse] (.text []) := by
  simp [Scanner.Reads, Scanner.run, tokenizer, step]

end Phrasebook.Xml

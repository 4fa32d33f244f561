import Phrasebook.Encoding.Utf8

namespace Phrasebook

/-- The names on the way from the root to a place, the last first. The root has none. -/
abbrev Location := List Text

inductive Node
  | directory
  | file (content : Bytes)
deriving Repr, DecidableEq

/-- What a directory holds: files and further directories, each under its name, in the order in
which they were made. -/
inductive Tree
  | empty
  | file (name : Text) (content : Bytes) (rest : Tree)
  | directory (name : Text) (inside rest : Tree)
deriving Repr, DecidableEq

/-- What stands under one name, a directory with all that it holds. -/
inductive Entry
  | directory (inside : Tree)
  | file (content : Bytes)
deriving Repr, DecidableEq

/-- The entry without what a directory holds. -/
def Entry.node : Entry → Node
  | .directory _ => .directory
  | .file content => .file content

/-- A node as a new entry: a directory begins empty. -/
def Node.entry : Node → Entry
  | .directory => .directory .empty
  | .file content => .file content

namespace Tree

def find? (name : Text) : Tree → Option Entry
  | empty => none
  | file n content rest => if n = name then some (.file content) else find? name rest
  | directory n inside rest => if n = name then some (.directory inside) else find? name rest

def cons (name : Text) : Entry → Tree → Tree
  | .directory inside, t => directory name inside t
  | .file content, t => file name content t

def set (name : Text) (e : Entry) : Tree → Tree
  | empty => cons name e empty
  | file n content rest => if n = name then cons name e rest else file n content (set name e rest)
  | directory n inside rest =>
    if n = name then cons name e rest else directory n inside (set name e rest)

/-- Where some names lead, the first of them in this tree. -/
def at? : List Text → Tree → Option Entry
  | [], t => some (.directory t)
  | name :: names, t =>
    match t.find? name with
    | some (.directory inside) => at? names inside
    | some (.file content) => if names.isEmpty then some (.file content) else none
    | none => none

def node? (names : List Text) (t : Tree) : Option Node := (t.at? names).map Entry.node

/-- The tree with an entry put where some names lead. All of them but the last have to lead to
directories, or nothing is put. -/
def put (e : Entry) : List Text → Tree → Tree
  | [], t => t
  | [name], t => t.set name e
  | name :: names, t =>
    match t.find? name with
    | some (.directory inside) => t.set name (.directory (put e names inside))
    | _ => t

/-- The locations below a directory where something is that was not there before, or was different.
The directory is given by its location and what it held before. -/
def changes (way : Location) (before : Tree) : Tree → List (Location × Node)
  | empty => []
  | file name content rest =>
    let later := changes way before rest
    if before.find? name = some (.file content) then later
    else (name :: way, .file content) :: later
  | directory name inside rest =>
    let later := changes way before rest
    match before.find? name with
    | some (.directory held) => changes (name :: way) held inside ++ later
    | _ => (name :: way, .directory) :: changes (name :: way) empty inside ++ later

theorem find?_cons (name other : Text) (e : Entry) (t : Tree) :
    (cons name e t).find? other = if name = other then some e else t.find? other := by
  cases e <;> rfl

theorem find?_set (name other : Text) (e : Entry) (t : Tree) :
    (t.set name e).find? other = if name = other then some e else t.find? other := by
  induction t with
  | empty => exact find?_cons name other e empty
  | file n content rest ih =>
    by_cases hn : n = name
    · by_cases h : name = other <;> simp [set, find?, find?_cons, hn, h]
    · by_cases h : n = other
      · subst h
        simp [set, find?, hn, Ne.symm hn]
      · simp [set, find?, hn, h, ih]
  | directory n inside rest ihInside ih =>
    by_cases hn : n = name
    · by_cases h : name = other <;> simp [set, find?, find?_cons, hn, h]
    · by_cases h : n = other
      · subst h
        simp [set, find?, hn, Ne.symm hn]
      · simp [set, find?, hn, h, ih]

theorem at?_singleton (name : Text) (t : Tree) : t.at? [name] = t.find? name := by
  unfold at?
  cases t.find? name with
  | none => rfl
  | some e => cases e <;> rfl

theorem at?_append_singleton (names : List Text) (name : Text) (t : Tree) :
    t.at? (names ++ [name]) =
      match t.at? names with
      | some (.directory inside) => inside.find? name
      | _ => none := by
  induction names generalizing t with
  | nil => exact at?_singleton name t
  | cons n names ih =>
    simp only [List.cons_append, at?]
    cases t.find? n with
    | none => rfl
    | some e =>
      cases e with
      | directory inside => exact ih inside
      | file content => cases names <;> rfl

theorem node?_put (node : Node) {names : List Text} (h : names ≠ []) (t : Tree)
    (above : t.node? names.dropLast = some .directory)
    (free : t.node? names ≠ some .directory) (other : List Text) :
    (t.put node.entry names).node? other = if names = other then some node else t.node? other := by
  induction names generalizing t other with
  | nil => exact absurd rfl h
  | cons name names ih =>
    cases other with
    | nil => simp [node?, at?, Entry.node]
    | cons n others =>
      cases names with
      | nil =>
        simp only [node?, at?_singleton] at free
        simp only [put, node?, at?, find?_set]
        by_cases hn : name = n
        · subst hn
          simp only [↓reduceIte]
          cases others with
          | nil => cases node <;> simp [Node.entry, Entry.node, at?]
          | cons o os =>
            cases hf : t.find? name with
            | none => cases node <;> simp [Node.entry, at?, find?]
            | some e =>
              cases e with
              | directory inside => simp [hf, Entry.node] at free
              | file content => cases node <;> simp [Node.entry, at?, find?]
        · simp [hn]
      | cons m names =>
        simp only [node?, List.dropLast_cons_cons, at?] at above free ih
        cases hf : t.find? name with
        | none => simp [hf] at above
        | some e =>
          cases e with
          | file content =>
            simp only [hf] at above
            split at above <;> simp [Entry.node] at above
          | directory inside =>
            simp only [hf] at above free
            simp only [put, hf, node?, at?, find?_set]
            by_cases hn : name = n
            · subst hn
              simp only [↓reduceIte, hf, List.cons.injEq, true_and]
              exact ih (by simp) inside above free others
            · simp [hn]

end Tree

end Phrasebook

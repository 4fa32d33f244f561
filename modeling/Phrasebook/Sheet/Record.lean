/-!
# Records

A sheet is a sequence of records, one to a line, each a sequence of cells with a delimiter between
them. A cell in quotes may hold delimiters and line ends, and a quote in it is written twice. The
reader accepts every input: what follows a closing quote is taken as it is, and the end of input
closes whatever is open. Breaks before a record are skipped, so an empty line is no record.

The symbols can be characters or bytes. Each record keeps the symbols it was read from, so the place
of a later one can be told.
-/

namespace Phrasebook

structure Dialect (α : Type) where
  quote : α
  delimiter : α
  carriageReturn : α
  lineFeed : α
deriving Repr, DecidableEq

/-- One record: the symbols it was read from, skipped breaks before it included, and its cells. -/
structure Record (α : Type) where
  raw : List α
  cells : List (List α)
deriving Repr, DecidableEq

namespace Record

inductive CellState
  | start
  | plain
  | quoted
  /-- A quote has been read in a quoted cell: its end, or the first of two. -/
  | quoteSeen
deriving Repr, DecidableEq

/-- A record being read: its finished cells and the symbols of the open one, the last in front. -/
structure Draft (α : Type) where
  finished : List (List α)
  cell : List α
  state : CellState
deriving Repr, DecidableEq

variable {α : Type}

namespace Draft

def empty : Draft α := ⟨[], [], .start⟩

def push (d : Draft α) (state : CellState) (a : α) : Draft α :=
  { d with cell := a :: d.cell, state := state }

def enter (d : Draft α) (state : CellState) : Draft α := { d with state := state }

def nextCell (d : Draft α) : Draft α := ⟨d.cell.reverse :: d.finished, [], .start⟩

/-- The cells, the open one included. -/
def cells (d : Draft α) : List (List α) := (d.cell.reverse :: d.finished).reverse

end Draft

variable [DecidableEq α]

def isBreak (δ : Dialect α) (a : α) : Bool := a == δ.carriageReturn || a == δ.lineFeed

/-- A symbol that the open cell may end with, or else `other`: a delimiter goes before a break. -/
def closeOr (δ : Dialect α) (d : Draft α) (a : α) (other : Draft α) :
    Draft α ⊕ List (List α) :=
  if a = δ.delimiter then .inl d.nextCell
  else if isBreak δ a then .inr d.cells
  else .inl other

/-- One symbol read: the record as far as it goes, or its cells if the symbol ends it. -/
def step (δ : Dialect α) (d : Draft α) (a : α) : Draft α ⊕ List (List α) :=
  match d.state with
  | .start => if a = δ.quote then .inl (d.enter .quoted) else closeOr δ d a (d.push .plain a)
  | .plain => closeOr δ d a (d.push .plain a)
  | .quoted => .inl (if a = δ.quote then d.enter .quoteSeen else d.push .quoted a)
  | .quoteSeen =>
    if a = δ.quote then .inl (d.push .quoted a) else closeOr δ d a (d.push .plain a)

/-- Reads on, with the symbols read for the present record, the last in front, and the record as
far as it goes, if one has begun. -/
def scanFrom (δ : Dialect α) (read : List α) (draft : Option (Draft α)) :
    List α → List (Record α)
  | [] => draft.toList.map fun d => ⟨read.reverse, d.cells⟩
  | a :: as =>
    if draft.isNone && isBreak δ a then scanFrom δ (a :: read) none as
    else
      match step δ (draft.getD .empty) a with
      | .inl d => scanFrom δ (a :: read) (some d) as
      | .inr cells => ⟨(a :: read).reverse, cells⟩ :: scanFrom δ [] none as

def scan (δ : Dialect α) (input : List α) : List (Record α) := scanFrom δ [] none input

end Record

end Phrasebook

import WordMachine.Failure
import WordMachine.Mnemonic
import WordMachine.Text.Lines
import WordMachine.Token

/-!
# Statements

A program is a list of statements, one for each line of its text. A statement knows its place in
the list and, once the program is laid out, its address and how many bytes it takes. An address is
the start of a statement when it is the sum of the sizes before it, and among statements that start
at one address only the one that takes room can be jumped to.
-/

namespace WordMachine

open Text

structure Statement where
  text : String
  index : Int
  address : Int := 0
  size : Int := 0
  deriving DecidableEq, Repr

/-- The line number, counted from one. -/
def Statement.line (s : Statement) : Int := s.index + 1

/-- The statements of a text, before they are laid out. -/
def statements (source : String) : List Statement :=
  (lines source).zipIdx.map fun (text, index) => { text, index }

/-- A line that holds code, taken apart. -/
structure CodeLine where
  first : String
  label : Option String
  name : String
  operands : List String
  deriving DecidableEq, Repr

/-- The first token is a label exactly when the second is an instruction name; otherwise it is the
name itself, known or not. -/
def CodeLine.ofTokens? : List String → Option CodeLine
  | [] => none
  | [name] => some ⟨name, none, name, []⟩
  | first :: second :: rest =>
    if isMnemonic second then some ⟨first, some first, second, rest⟩
    else some ⟨first, none, first, second :: rest⟩

/-- The code of a line; nothing for a line that is blank or all comment. -/
def CodeLine.parse? (text : String) : Option CodeLine := CodeLine.ofTokens? (tokens text)

/-- The mnemonic that a line of code names. -/
def CodeLine.mnemonic? (l : CodeLine) : Option Mnemonic := Mnemonic.ofName? l.name

/-- Searches statements whose first starts at a boundary and has a place for one that takes room
and starts at an address. -/
def targetFrom? (address : Int) : Int → Nat → List Statement → Option Nat
  | _, _, [] => none
  | boundary, place, s :: rest =>
    if 0 < s.size ∧ address = boundary then some place
    else if address < boundary then none
    else targetFrom? address (boundary + s.size) (place + 1) rest

/-- The place of the statement that a jump to an address leads to. -/
def target? (program : List Statement) (address : Int) : Option Nat :=
  targetFrom? address 0 0 program

/-- The same for a jump on a given line. -/
def jumpTarget (program : List Statement) (address line : Int) : Except Diagnostic Nat :=
  match target? program address with
  | some place => .ok place
  | none => .error ⟨.invalidJumpTarget address, some line⟩

theorem CodeLine.ofTokens?_eq_none_iff {ts : List String} :
    CodeLine.ofTokens? ts = none ↔ ts = [] := by
  unfold CodeLine.ofTokens?
  split
  · simp
  · simp
  · split <;> simp

end WordMachine

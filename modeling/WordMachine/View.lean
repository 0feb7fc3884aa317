import WordMachine.Engine
import WordMachine.Text.Column

/-!
# Views of the machine as text

Every view is a table: a row for each register, for each stretch of memory of a given width, for
each label and for each statement. Cells that keep room for an instruction are shown as dots.
-/

namespace WordMachine.View

open Text

def flags (f : Flags) : String :=
  "ZF=" ++ (if f.zero then "1" else "0") ++ " SF=" ++ (if f.sign then "1" else "0")

/-- A register: its number, its value, and its word in base sixteen. -/
def register (index : Nat) (value : Int) : String :=
  "R" ++ alignLeft 2 (toString index) ++ " = " ++ alignRight 11 (toString value) ++ "  0x"
    ++ hexColumn 8 (Word.unsigned value)

def registers (values : List Int) : String :=
  rows (values.zipIdx.map fun (value, index) => register index value)

def cell (c : Cell) : String := if c.isData then hexColumn 2 c.value.toNat else ".."

def tag (c : Cell) : Char := if c.isData then 'D' else 'I'

/-- The rows of a dump: cells in pieces of the given width, each with the address of its first. -/
def pieces (width : Nat) (cells : Array Cell) : List (Nat × List Cell) :=
  (List.range ((cells.size + width - 1) / width)).map fun k =>
    (k * width, (cells.extract (k * width) (k * width + width)).toList)

/-- Characters in the column of values of a full row. -/
def columnWidth (width : Nat) : Nat := width * 3 - 1

/-- A row of a dump: address, values in a column wide enough for a full row, tags. -/
def dumpRow (width start : Nat) (cells : List Cell) : String :=
  hexColumn 4 start ++ "  " ++ alignLeft (columnWidth width) (" ".intercalate (cells.map cell))
    ++ "  " ++ String.ofList (cells.map tag)

def dumpRows (width : Nat) (m : Memory) : List String :=
  (pieces width m.cells).map fun (start, cells) => dumpRow width start cells

/-- Why a column cannot be as wide as asked: its width cannot be written out, or is no count. -/
def refuseColumn? (width : Nat) : Option Refusal :=
  if !Numeral.isWritable width then some .numberTooLong
  else if indexLimit ≤ width then some .widthTooLarge
  else none

/-- Memory in rows of a given width. A width of zero is refused, and so is one whose rows, if there
are any, would have too wide a column; below zero there are no rows. -/
def dump (m : Memory) (width : Int) : Except Refusal String :=
  if width = 0 then .error .zeroWidth
  else if width < 0 then .ok ""
  else match if m.size = 0 then none else refuseColumn? (columnWidth width.toNat) with
    | some r => .error r
    | none => .ok (rows (dumpRows width.toNat m))

/-- Memory in rows of a word. -/
def memory (m : Memory) : String := rows (dumpRows Word.bytes m)

def label (l : Label) : String :=
  alignLeft 12 l.name ++ " " ++ alignRight 6 (toString l.address) ++ "  " ++ toString (l.line + 1)

def symbols (t : Symbols) : String :=
  rows ((alignLeft 12 "LABEL" ++ " " ++ alignRight 6 "ADDR" ++ "  LINE") :: t.labels.map label)

/-- An address of at least four places; the sign, if any, takes one. -/
def address (a : Int) : String :=
  if a < 0 then "-" ++ hexColumn 3 a.natAbs else hexColumn 4 a.natAbs

/-- A statement: the mark of the current one, line, address if it takes room, size and text. -/
def statement (current : Option Int) (s : Statement) : String :=
  (if current = some s.index then ">" else " ") ++ alignRight 4 (toString s.line) ++ "  "
    ++ (if s.size = 0 then "    " else address s.address) ++ "  " ++ alignRight 3 (toString s.size)
    ++ "  " ++ s.text

def listing (program : List Statement) (current : Option Int) : String :=
  rows (program.map (statement current))

/-- The flags and the registers that are not zero, in one line. -/
def brief (r : Registers) : String :=
  flags r.flags ++ "  " ++ " ".intercalate
    ((r.values.zipIdx.filter fun (value, _) => value ≠ 0).map fun (value, index) =>
      "R" ++ toString index ++ "=" ++ toString value)

end WordMachine.View

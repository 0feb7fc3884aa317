import WordMachine.Chunk
import WordMachine.Statement
import WordMachine.Symbols

/-!
# Laying out a program

Statements are taken in order. Each gets the address reached so far, defines its label there and
adds its chunk to the memory image. Declarations come before the first instruction. The first
statement that breaks a rule ends the layout with its error; within a statement a label defined
twice is found before a malformed one, then an unknown name, a declaration out of order, and a bad
operand.
-/

namespace WordMachine

/-- A program laid out. -/
structure Layout where
  statements : List Statement
  symbols : Symbols
  memory : Memory
  deriving DecidableEq, Repr

namespace Layout

/-- Bytes the whole program takes. -/
def size (l : Layout) : Int := l.statements.foldr (fun s n => s.size + n) 0

/-- A layout under way: what is done, the address reached, and whether an instruction was seen. -/
structure Draft where
  statements : Array Statement := #[]
  symbols : Symbols := {}
  memory : Memory := {}
  address : Int := 0
  inCode : Bool := false
  deriving DecidableEq, Repr

namespace Draft

/-- Defines the label of a statement, if it has one. -/
def define (d : Draft) (s : Statement) : Option String → Except Failure Draft
  | none => .ok d
  | some name =>
    match d.symbols.define ⟨name, s.index, d.address⟩ with
    | .error e => .error (.diagnostic e)
    | .ok symbols =>
      if isLabelName name then .ok { d with symbols }
      else .error (.atLine s.line (.invalidLabel name))

/-- What a line of code is to put into memory after the lines before it. -/
def chunk (d : Draft) (s : Statement) (l : CodeLine) : Except Failure Chunk :=
  match l.mnemonic? with
  | none => .error (.atLine s.line (.unknownInstruction l.name))
  | some (.data op) =>
    if d.inCode then .error (.atLine s.line (.dataAfterCode l.first))
    else op.chunk l.operands s.line
  | some m => .ok (.code m.size)

/-- A statement placed at the address reached. -/
def push (d : Draft) (s : Statement) (size : Int) : Draft :=
  { d with
    statements := d.statements.push { s with address := d.address, size }
    address := d.address + size }

/-- A chunk taken into the image. -/
def store (d : Draft) (c : Chunk) : Except Failure Draft :=
  match c.addTo d.memory with
  | .error r => .error (.refusal r)
  | .ok memory => .ok { d with memory, inCode := d.inCode || c.isCode }

/-- The next statement laid out. -/
def add (d : Draft) (s : Statement) : Except Failure Draft :=
  match CodeLine.parse? s.text with
  | none => .ok (d.push s 0)
  | some l => do
    let d ← d.define s l.label
    let c ← d.chunk s l
    let d ← d.store c
    return d.push s c.size

end Draft

/-- Lays out the statements of a program. -/
def build (program : List Statement) : Except Failure Layout := do
  let d ← program.foldlM Draft.add {}
  return ⟨d.statements.toList, d.symbols, d.memory⟩

end Layout

end WordMachine

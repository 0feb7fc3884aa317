import WordMachine.Memory
import WordMachine.Mnemonic
import WordMachine.Text.Lines
import WordMachine.Text.Numeral

/-!
# What a line puts into memory

A chunk is the room that one line takes: copies of a constant word, zeroed words, or room for an
instruction. It is added at the end of the image, which may refuse a chunk for its size. The operand
of a declaration is all its tokens run together; a count stands before a star, and the value of a
constant is the first decimal number of its text, negative when a minus sign stands right before it.
-/

namespace WordMachine

open Text

inductive Chunk where
  | words (count : Nat) (value : Int)
  | zeros (count : Nat)
  | code (size : Nat)
  deriving DecidableEq, Repr

namespace Chunk

def size : Chunk → Nat
  | words count _ => count * Word.bytes
  | zeros count => count * Word.bytes
  | code size => size

def isCode : Chunk → Bool
  | code _ => true
  | _ => false

def cells : Chunk → List Cell
  | words count value => (List.replicate count (Cell.ofWord value)).flatten
  | zeros count => List.replicate (count * Word.bytes) ⟨0, .data⟩
  | code size => List.replicate size .room

/-- A chunk added at the end of an image. Constants are words, of which there can be no more than
are counted; the room of the other chunks is reserved. -/
def addTo (m : Memory) : Chunk → Except Refusal Memory
  | words count value =>
    if indexLimit ≤ count then .error .countTooLarge
    else .ok (m.appendWords (List.replicate count value))
  | zeros count => m.reserve (count * Word.bytes) ⟨0, .data⟩
  | code size => m.reserve size .room

@[simp] theorem length_cells (c : Chunk) : c.cells.length = c.size := by
  cases c <;> simp [cells, size, Word.bytes]

end Chunk

namespace Literal

/-- The first run of decimal digits of a text, and whether a minus sign stands right before it. -/
def find? (text : List Char) : Option (Bool × List Char) :=
  let before := text.takeWhile (!isDecimal ·)
  let digits := (text.dropWhile (!isDecimal ·)).takeWhile isDecimal
  if digits.isEmpty then none else some (before.getLast? == some '-', digits)

def fault (line : Int) (f : LiteralFault) : Failure := .atLine line (.literal f)

/-- The value of a constant. -/
def value (text : List Char) (line : Int) : Except Failure Int :=
  match find? text with
  | none => .error (fault line (.noNumber (String.ofList text)))
  | some (negative, digits) =>
    match Numeral.read digits with
    | .error e => .error (.refusal (.numeral e))
    | .ok n =>
      let v : Int := if negative then -n else n
      if Word.Fits v then .ok v else .error (fault line (.outOfRange v))

/-- A repeat count. Every character has to look like a digit before the text is converted. -/
def count (text : List Char) (line : Int) : Except Failure Nat :=
  if text.isEmpty || !text.all isDigitLike then
    .error (fault line (.badCount (String.ofList text)))
  else
    match Numeral.read text with
    | .error e => .error (.refusal (.numeral e))
    | .ok n => .ok n

/-- The parts of an operand around its stars; none for an empty operand. -/
def parts (operand : List Char) : List (List Char) :=
  if operand.isEmpty then [] else splitAtChar '*' operand

/-- The chunk of a constant. -/
def constant (operand : List Char) (line : Int) : Except Failure Chunk :=
  match parts operand with
  | [] => .error (fault line .missingValue)
  | [text] => do
    let v ← value text line
    return .words 1 v
  | [times, text] => do
    let n ← count times line
    let v ← value text line
    return .words n v
  | _ => .error (fault line (.malformed (String.ofList operand)))

/-- The chunk of reserved space: one word where no count is given. -/
def space (operand : List Char) (line : Int) : Except Failure Chunk :=
  match parts operand with
  | [] | [_] => .ok (.zeros 1)
  | [times, _] => do
    let n ← count times line
    return .zeros n
  | _ => .error (fault line (.malformed (String.ofList operand)))

end Literal

/-- The chunk of a declaration with the given operand tokens. -/
def DataOp.chunk (op : DataOp) (operands : List String) (line : Int) : Except Failure Chunk :=
  let operand := operands.flatMap String.toList
  match op with
  | .constant => Literal.constant operand line
  | .space => Literal.space operand line

end WordMachine

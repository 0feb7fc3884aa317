import WordMachine.Failure
import WordMachine.Mnemonic
import WordMachine.Text.Numeral

/-!
# Decoded instructions

Operands are read from left to right against the number of registers: two operands with a comma
between them, or one for a jump. What is left after decoding names registers that exist and an
address still to be resolved.
-/

namespace WordMachine

open Text

/-- An address as written. -/
inductive Address where
  | absolute (address : Nat)
  | indirect (register : Nat)
  | label (name : String)
  deriving DecidableEq, Repr

inductive Instruction where
  | register (op : RegisterOp) (target source : Nat)
  | memory (op : MemoryOp) (target : Nat) (source : Address)
  | jump (when : Condition) (target : Address)
  | data
  deriving DecidableEq, Repr

/-- ASCII digits, at least one. -/
def isDigits (cs : List Char) : Bool := !cs.isEmpty && cs.all Char.isDigit

/-- A run of digits as a number. -/
def readNumber (cs : List Char) : Except Failure Nat :=
  match Numeral.read cs with
  | .ok n => .ok n
  | .error e => .error (.refusal (.numeral e))

/-- A register out of the given number of them. -/
def readRegister (count : Nat) (token : List Char) (line : Int) : Except Failure Nat :=
  let invalid := Failure.atLine line (.operand (.invalidRegister (String.ofList token)))
  if isDigits token then do
    let n ← readNumber token
    if n < count then return n else .error invalid
  else .error invalid

/-- The digits between the parentheses of an indirect address. -/
def indirectDigits? : List Char → Option (List Char)
  | '0' :: '(' :: rest =>
    if rest.getLast? = some ')' ∧ isDigits rest.dropLast then some rest.dropLast else none
  | _ => none

/-- An address: all digits, a register in parentheses after a zero, or else a label. -/
def Address.read (count : Nat) (token : String) (line : Int) : Except Failure Address :=
  if isDigits token.toList then do
    let n ← readNumber token.toList
    return .absolute n
  else match indirectDigits? token.toList with
    | some digits => do
      let r ← readRegister count digits line
      return .indirect r
    | none => .ok (.label token)

/-- The first register and the second operand of an instruction that has both. -/
def readPair (count : Nat) (m : Mnemonic) (operands : List String) (line : Int) :
    Except Failure (Nat × String) :=
  match operands with
  | [first, comma, second] =>
    if comma = "," then do
      let r ← readRegister count first.toList line
      return (r, second)
    else .error (.atLine line (.operand (.missingComma m.name)))
  | _ => .error (.atLine line (.operand (.notTwoArguments m.name)))

/-- The instruction that a mnemonic and its operand tokens stand for. -/
def Instruction.decode (count : Nat) (m : Mnemonic) (operands : List String) (line : Int) :
    Except Failure Instruction :=
  match m with
  | .register op => do
    let (target, second) ← readPair count m operands line
    let source ← readRegister count second.toList line
    return .register op target source
  | .memory op => do
    let (target, second) ← readPair count m operands line
    let source ← Address.read count second line
    return .memory op target source
  | .jump when =>
    match operands with
    | [token] => do
      let target ← Address.read count token line
      return .jump when target
    | _ => .error (.atLine line (.operand (.notOneArgument m.name)))
  | .data _ => .ok .data

end WordMachine

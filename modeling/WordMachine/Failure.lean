import WordMachine.Text.Column
import WordMachine.Text.Numeral
import WordMachine.Text.Utf8

/-!
# What can go wrong

A `Diagnostic` is an error in the program: a cause, and the line it is charged to. A `Refusal` is
an operation that has no answer whatever the program means, such as a numeral with too many digits
or a row of no width. Both are data, and their wording is written here once. A diagnostic whose
text would show a number too long to be written out is reported as a refusal.
-/

namespace WordMachine

open Text

/-- What is wrong with the operand of a data declaration. -/
inductive LiteralFault where
  | malformed (operand : String)
  | missingValue
  | badCount (text : String)
  | noNumber (text : String)
  | outOfRange (value : Int)
  | worded (text : String)
  deriving DecidableEq, Repr

def LiteralFault.text : LiteralFault → String
  | .malformed operand => "Malformed operand \"" ++ operand ++ "\"."
  | .missingValue => "DC requires a value."
  | .badCount text => "Repeat count \"" ++ text ++ "\" must be a non-negative integer."
  | .noNumber text => "Expected a number in \"" ++ text ++ "\"."
  | .outOfRange value => "Value " ++ toString value ++ " does not fit in 32 bits."
  | .worded text => text

/-- What is wrong with the operands of an instruction, which is named by its spelling. -/
inductive OperandFault where
  | notTwoArguments (name : String)
  | missingComma (name : String)
  | invalidRegister (token : String)
  | notOneArgument (name : String)
  | worded (text : String)
  deriving DecidableEq, Repr

def OperandFault.text : OperandFault → String
  | .notTwoArguments name =>
    "Wrong number of arguments for instruction \"" ++ name ++ "\" (expected \"" ++ name
      ++ " r1, operand\")."
  | .missingComma name => "Expected \",\" between arguments of instruction " ++ name ++ "."
  | .invalidRegister token => "Invalid register \"" ++ token ++ "\"."
  | .notOneArgument name =>
    "Instruction \"" ++ name ++ "\" accepts only one argument \"" ++ name ++ " <memory address>\"."
  | .worded text => text

/-- Whether an error is found while the program is laid out or while it runs. -/
inductive Phase where
  | layout
  | execution
  deriving DecidableEq, Repr

/-- The cause of an error in a program. -/
inductive Cause where
  /-- An error in the caller's own words. -/
  | remark (phase : Option Phase) (text : String)
  | duplicateLabel (name : String) (firstLine : Option Int)
  | invalidLabel (name : String)
  | unknownInstruction (name : String)
  | dataAfterCode (label : String)
  | literal (fault : LiteralFault)
  | operand (fault : OperandFault)
  | invalidInstruction (name : String)
  | undefinedLabel (name : String)
  | invalidJumpTarget (address : Int)
  | memoryAccess (address : Int) (size : Int)
  | executionLimit (limit : Int)
  deriving DecidableEq, Repr

namespace Cause

/-- The phase in which an error is found; a remark may belong to neither. -/
def phase? : Cause → Option Phase
  | remark phase _ => phase
  | duplicateLabel .. | invalidLabel _ | unknownInstruction _ | dataAfterCode _ | literal _ =>
    some .layout
  | operand _ | invalidInstruction _ | undefinedLabel _ | invalidJumpTarget _ | memoryAccess ..
  | executionLimit _ => some .execution

def text : Cause → String
  | remark _ text => text
  | duplicateLabel name _ => "Label \"" ++ name ++ "\" is defined more than once."
  | invalidLabel name => "Label \"" ++ name ++ "\" name must be an alphanumeric name."
  | unknownInstruction name => "Unrecognized instruction name \"" ++ name ++ "\"."
  | dataAfterCode label =>
    "Data declarations (labels with DC/DS) must precede executable instructions. Move label \""
      ++ label ++ "\" at the top of the program."
  | literal fault => fault.text
  | operand fault => fault.text
  | invalidInstruction name => "Unrecognized instruction name \"" ++ name ++ "\"."
  | undefinedLabel name => "There isn't defined label \"" ++ name ++ "\"."
  | invalidJumpTarget address =>
    "InvalidJumpTarget - attempted to jump to address 0x" ++ signedHexColumn 8 address
      ++ ", which is not executable."
  | memoryAccess address size =>
    "Memory access at address " ++ toString address ++ " is outside the memory image ("
      ++ toString size ++ " bytes)."
  | executionLimit limit =>
    "Program halted after exceeding the execution limit of " ++ toString limit
      ++ " instructions. Possible infinite loop detected."

/-- The numbers of any length that the text of a cause shows in base ten. The size of memory is a
count and always short, and so is an address up to it. -/
def numbers : Cause → List Int
  | literal (.outOfRange value) => [value]
  | memoryAccess address size => if 0 ≤ address ∧ address ≤ size then [] else [address]
  | executionLimit limit => [limit]
  | _ => []

/-- Whether the text of a cause can be written out. -/
def isWritable (c : Cause) : Bool := c.numbers.all Numeral.isWritable

theorem isWritable_memoryAccess {address size : Int} :
    (memoryAccess address size).isWritable = true
      ↔ Numeral.isWritable address = true ∨ 0 ≤ address ∧ address ≤ size := by
  simp only [isWritable, numbers]
  split
  · simp [*]
  · simp [*]

end Cause

/-- An error in a program and the line, counted from one, to which it is charged. -/
structure Diagnostic where
  cause : Cause
  line : Option Int
  deriving DecidableEq, Repr

/-- The line comes first where there is one. -/
def Diagnostic.message (d : Diagnostic) : String :=
  match d.line with
  | none => d.cause.text
  | some line => "[Line " ++ toString line ++ "] " ++ d.cause.text

/-- An operation that has no answer, the program aside. -/
inductive Refusal where
  | numeral (fault : Numeral.Fault)
  | numberTooLong
  | countTooLarge
  | roomTooLarge
  | negativeSize
  | zeroWidth
  | widthTooLarge
  | lineOutside (line : Int) (count : Nat)
  | noCell
  | noRegister
  | noRegisterToWrite
  | noStatement
  | positionTooLarge
  | notText (fault : Utf8.Fault)
  deriving DecidableEq, Repr

/-- What a refusal is about: a value, a size that is too large for one, or a position. -/
inductive RefusalKind where
  | value
  | capacity
  | position
  deriving DecidableEq, Repr

def Refusal.kind : Refusal → RefusalKind
  | .numeral _ | .numberTooLong | .negativeSize | .zeroWidth | .widthTooLarge | .lineOutside ..
  | .notText _ => .value
  | .countTooLarge | .roomTooLarge => .capacity
  | .noCell | .noRegister | .noRegisterToWrite | .noStatement | .positionTooLarge => .position

def Refusal.message : Refusal → String
  | .numeral fault => fault.text
  | .numberTooLong =>
    "Exceeds the limit (" ++ toString Numeral.maxDigits ++ " digits) for integer string conversion;"
      ++ " use sys.set_int_max_str_digits() to increase the limit"
  | .countTooLarge => "cannot fit 'int' into an index-sized integer"
  | .roomTooLarge => "byte string is too large"
  | .negativeSize => "negative count"
  | .zeroWidth => "range() arg 3 must not be zero"
  | .widthTooLarge => "Too many decimal digits in format string"
  | .lineOutside line count =>
    "Line " ++ toString line ++ " is outside the program (1-" ++ toString count ++ ")"
  | .noCell => "bytearray index out of range"
  | .noRegister => "list index out of range"
  | .noRegisterToWrite => "list assignment index out of range"
  | .noStatement => "tuple index out of range"
  | .positionTooLarge => "cannot fit 'int' into an index-sized integer"
  | .notText fault => fault.text

/-- Either kind of failure. -/
inductive Failure where
  | diagnostic (d : Diagnostic)
  | refusal (r : Refusal)
  deriving DecidableEq, Repr

def Failure.message : Failure → String
  | .diagnostic d => d.message
  | .refusal r => r.message

/-- A program error as it is reported: one whose text cannot be written out is refused. The line of
a statement never is too long. -/
def Failure.report (d : Diagnostic) : Failure :=
  if d.cause.isWritable then .diagnostic d else .refusal .numberTooLong

/-- A program error charged to a line. -/
def Failure.atLine (line : Int) (cause : Cause) : Failure := .diagnostic ⟨cause, some line⟩

end WordMachine

import WordMachine.Text.Character

/-!
# Decimal numerals

A numeral is read digit by digit in base ten, whatever the script of its digits. More than 4300
digits are refused before any is converted, leading zeros counted and the sign not. Nor is a number
written out that has more digits than that.
-/

namespace WordMachine.Text.Numeral

/-- Why a text is not converted to a number. -/
inductive Fault where
  /-- A character of the text is no decimal digit. -/
  | notDecimal (text : List Char)
  /-- The text has more digits than are converted. -/
  | tooManyDigits (count : Nat)
  deriving DecidableEq, Repr

/-- The longest run of digits that is converted. -/
def maxDigits : Nat := 4300

/-- The first number with too many digits to be written out. -/
def writeLimit : Nat := Nat.pow 10 maxDigits

/-- Whether a number can be written out in base ten. -/
def isWritable (i : Int) : Bool := i.natAbs < writeLimit

theorem isWritable_mono {i j : Int} (h : i.natAbs ≤ j.natAbs) (hj : isWritable j = true) :
    isWritable i = true :=
  decide_eq_true (Nat.lt_of_le_of_lt h (of_decide_eq_true hj))

/-- The number that digits stand for, the most significant first. -/
def ofDigits (digits : List Nat) : Nat := digits.foldl (fun n d => 10 * n + d) 0

/-- Reads a numeral without a sign. The digits before the first other character are counted first,
so an excess of them is reported even where such a character follows. -/
def read (text : List Char) : Except Fault Nat :=
  let digits := text.takeWhile isDecimal
  if maxDigits < digits.length then .error (.tooManyDigits digits.length)
  else if text.all isDecimal && !text.isEmpty then .ok (ofDigits (digits.filterMap decimalDigit?))
  else .error (.notDecimal text)

/-- At most this many characters of a text and its quotes are shown when it is quoted. -/
def quotedLength : Nat := 200

def Fault.text : Fault → String
  | .notDecimal text =>
    "invalid literal for int() with base 10: "
      ++ String.ofList (("'" ++ String.ofList text ++ "'").toList.take quotedLength)
  | .tooManyDigits count =>
    "Exceeds the limit (" ++ toString maxDigits ++ " digits) for integer string conversion: "
      ++ "value has " ++ toString count
      ++ " digits; use sys.set_int_max_str_digits() to increase the limit"

/-- Blanks around a numeral on the command line: those of tokens less the record separators. -/
def isPadding (c : Char) : Bool := isBlank c && !inRanges [(0x1C, 0x1F)] c

/-- Digits in groups joined by single underscores; nothing if a group is empty or not decimal. -/
def ungroup? (cs : List Char) : Option (List Char) :=
  let step := fun (c : Char) (acc : Option (List Char × Bool)) =>
    acc.bind fun (digits, afterDigit) =>
      if isDecimal c then some (c :: digits, true)
      else if c = '_' && afterDigit then some (digits, false)
      else none
  match cs.foldr step (some ([], false)) with
  | some (digits, true) => some digits
  | _ => none

/-- Reads a numeral as written on a command line: blanks around it, one sign before it, single
underscores between its digits. -/
def readSigned? (text : String) : Option Int :=
  let body := trim isPadding text.toList
  let (negative, digits) : Bool × List Char :=
    match body with
    | '-' :: rest => (true, rest)
    | '+' :: rest => (false, rest)
    | _ => (false, body)
  match (ungroup? digits).map read with
  | some (.ok n) => some (if negative then -(n : Int) else n)
  | _ => none

end WordMachine.Text.Numeral

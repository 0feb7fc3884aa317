/-!
# Columns of text

Alignment in a column counts characters, and text wider than its column is left whole. Numbers in
base sixteen are filled with zeros on the left, and a sign takes one place of the width.
-/

namespace WordMachine.Text

/-- Text at the left of a column. -/
def alignLeft (width : Nat) (text : String) : String :=
  text ++ String.ofList (List.replicate (width - text.length) ' ')

/-- Text at the right of a column. -/
def alignRight (width : Nat) (text : String) : String :=
  String.ofList (List.replicate (width - text.length) ' ') ++ text

/-- Digits filled with zeros up to the given number of places. -/
def zeroFill (width : Nat) (digits : List Char) : List Char :=
  List.replicate (width - digits.length) '0' ++ digits

/-- A number in base sixteen, small letters. -/
def lowerHex (n : Nat) : List Char := Nat.toDigits 16 n

/-- A number in base sixteen, capital letters. -/
def upperHex (n : Nat) : List Char := (Nat.toDigits 16 n).map Char.toUpper

/-- A number in base sixteen with capital letters and at least the given number of places. -/
def hexColumn (width n : Nat) : String := String.ofList (zeroFill width (upperHex n))

/-- A signed number in base sixteen, the sign first and counted in the width. -/
def signedHexColumn (width : Nat) (i : Int) : String :=
  if i < 0 then String.ofList ('-' :: zeroFill (width - 1) (lowerHex i.natAbs))
  else String.ofList (zeroFill width (lowerHex i.natAbs))

/-- A signed number in base sixteen with its mark, as in -0x4. -/
def markedHex (i : Int) : String :=
  (if i < 0 then "-0x" else "0x") ++ String.ofList (lowerHex i.natAbs)

/-- Rows of text, one under the other, with no line end after the last. -/
def rows (lines : List String) : String := "\n".intercalate lines

end WordMachine.Text

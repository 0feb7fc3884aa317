import WordMachine.Text.Character

/-!
# Tokens of a line

A line is code up to its first number sign and comment from there on. The tokens of the code are
its runs of characters that are neither blanks nor commas, and each comma by itself, from left to
right.
-/

namespace WordMachine

namespace Token

open Text

/-- The code of a line: blanks at the ends dropped, then the part before the first number sign. -/
def code (line : List Char) : List Char :=
  (trim isBlank line).takeWhile (· ≠ '#')

/-- A run put before the tokens that follow it, unless it is empty. -/
def push (run : List Char) (tokens : List (List Char)) : List (List Char) :=
  if run.isEmpty then tokens else run :: tokens

/-- What one more character at the front makes of the run at the front and the tokens after it. -/
def scanChar (c : Char) (p : List Char × List (List Char)) : List Char × List (List Char) :=
  if isBlank c then ([], push p.1 p.2)
  else if c = ',' then ([], [','] :: push p.1 p.2)
  else (c :: p.1, p.2)

/-- The tokens of code. -/
def scan (cs : List Char) : List (List Char) :=
  let p := cs.foldr scanChar ([], [])
  push p.1 p.2

end Token

/-- The code of a line as text. -/
def codeOf (line : String) : String := String.ofList (Token.code line.toList)

/-- The tokens of a line. -/
def tokens (line : String) : List String :=
  (Token.scan (Token.code line.toList)).map String.ofList

end WordMachine

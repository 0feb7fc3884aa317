import WordMachine.Text.Column

/-!
# Reading bytes as text

Bytes are read as UTF-8, one at a time. Between bytes the reader either stands between characters
or owes continuation bytes, and then it knows the bounds within which the next one must lie: the
bounds after the first byte exclude overlong forms, surrogates and values past the last character.
The first byte that does not fit ends the reading, and the fault covers the bytes of the character
begun.
-/

namespace WordMachine.Text.Utf8

/-- Why a sequence of bytes is not text. -/
inductive Reason where
  | invalidStart
  | invalidContinuation
  | unexpectedEnd
  deriving DecidableEq, Repr

/-- The bytes that cannot be read: where they begin, how many they are, and the first of them. -/
structure Fault where
  start : Nat
  length : Nat
  first : UInt8
  reason : Reason
  deriving DecidableEq, Repr

/-- A character begun: its value so far, the bytes read and owed, and the bounds of the next. -/
structure Pending where
  first : UInt8
  value : Nat
  read : Nat
  owed : Nat
  low : Nat
  high : Nat
  deriving DecidableEq, Repr

/-- What the first byte of a character of several bytes leads to. -/
def lead? (b : UInt8) : Option Pending :=
  let n := b.toNat
  if n < 0xC2 then none
  else if n < 0xE0 then some ⟨b, n % 32, 1, 1, 0x80, 0xBF⟩
  else if n < 0xF0 then
    some ⟨b, n % 16, 1, 2, if n = 0xE0 then 0xA0 else 0x80, if n = 0xED then 0x9F else 0xBF⟩
  else if n < 0xF5 then
    some ⟨b, n % 8, 1, 3, if n = 0xF0 then 0x90 else 0x80, if n = 0xF4 then 0x8F else 0xBF⟩
  else none

/-- A continuation byte taken in. -/
def Pending.push (p : Pending) (b : UInt8) : Pending :=
  ⟨p.first, p.value * 64 + b.toNat % 64, p.read + 1, p.owed - 1, 0x80, 0xBF⟩

/-- The fault that ends a character begun at the given position. -/
def Pending.fault (p : Pending) (start : Nat) (reason : Reason) : Fault :=
  ⟨start, p.read, p.first, reason⟩

/-- Reads on from a position, with the character begun there and the characters read before it. -/
def decodeFrom : Nat → Option Pending → Array Char → List UInt8 → Except Fault (Array Char)
  | _, none, done, [] => .ok done
  | start, some p, _, [] => .error (p.fault start .unexpectedEnd)
  | start, none, done, b :: rest =>
    if b.toNat < 0x80 then decodeFrom (start + 1) none (done.push (Char.ofNat b.toNat)) rest
    else match lead? b with
      | none => .error ⟨start, 1, b, .invalidStart⟩
      | some p => decodeFrom start (some p) done rest
  | start, some p, done, b :: rest =>
    if p.low ≤ b.toNat ∧ b.toNat ≤ p.high then
      let q := p.push b
      if q.owed = 0 then decodeFrom (start + q.read) none (done.push (Char.ofNat q.value)) rest
      else decodeFrom start (some q) done rest
    else .error (p.fault start .invalidContinuation)

/-- The characters that a sequence of bytes stands for. -/
def decode (bytes : List UInt8) : Except Fault (List Char) :=
  (decodeFrom 0 none #[] bytes).map Array.toList

def Reason.text : Reason → String
  | .invalidStart => "invalid start byte"
  | .invalidContinuation => "invalid continuation byte"
  | .unexpectedEnd => "unexpected end of data"

/-- A single byte is shown with its value, several by their positions. -/
def Fault.text (f : Fault) : String :=
  let place :=
    if f.length = 1 then
      "byte 0x" ++ String.ofList (zeroFill 2 (lowerHex f.first.toNat)) ++ " in position "
        ++ toString f.start
    else
      "bytes in position " ++ toString f.start ++ "-" ++ toString (f.start + f.length - 1)
  "'utf-8' codec can't decode " ++ place ++ ": " ++ f.reason.text

end WordMachine.Text.Utf8

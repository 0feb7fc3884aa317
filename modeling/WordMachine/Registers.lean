import WordMachine.Failure
import WordMachine.Index
import WordMachine.Word

/-!
# Registers and flags

A file of registers holds words, and every write wraps. Two flags describe a result as zero or
negative; they are always set together, from one value.
-/

namespace WordMachine

/-- The condition flags. The register that holds them has more bits, which have no meaning and
which no result sets. -/
structure Flags where
  zero : Bool := false
  sign : Bool := false
  spare : Nat := 0
  deriving DecidableEq, Repr

namespace Flags

/-- The flags that describe a result. -/
def ofResult (v : Int) : Flags := { zero := v == 0, sign := v < 0 }

/-- Zero is bit six and sign is bit seven. -/
def bits (f : Flags) : Nat := (if f.zero then 64 else 0) + (if f.sign then 128 else 0) + f.spare

/-- The flags with the given bits. -/
def ofBits (n : Nat) : Flags :=
  let zero := n.testBit 6
  let sign := n.testBit 7
  { zero, sign, spare := n - (if zero then 64 else 0) - (if sign then 128 else 0) }

/-- The flags that a number stands for. A negative number is completed to eight bits, or to as many
as its size has when it does not lie within them. -/
def ofInt (n : Int) : Flags :=
  if 0 ≤ n then ofBits n.toNat
  else if -256 ≤ n then ofBits (256 + n).toNat
  else ofBits (Nat.pow 2 (n.natAbs.log2 + 1) - n.natAbs)

/-- A one-line summary: the names of the flags that are set, the spare bits after them, and the
whole. -/
def summary (f : Flags) : String :=
  let names := (if f.zero then ["ZF"] else []) ++ (if f.sign then ["SF"] else [])
  let parts := if f.spare = 0 then names else names ++ [toString f.spare]
  let shown := if names.isEmpty then "" else "." ++ "|".intercalate parts
  "<Flags" ++ shown ++ ": " ++ toString f.bits ++ ">"

/-- A result is not both zero and negative. -/
theorem not_zero_and_sign_ofResult (v : Int) :
    ¬ ((ofResult v).zero = true ∧ (ofResult v).sign = true) := by
  simp only [ofResult, beq_iff_eq, decide_eq_true_eq]
  omega

end Flags

structure Registers where
  values : List Int
  flags : Flags := {}
  deriving DecidableEq, Repr

namespace Registers

/-- The number of registers asked for: none for a negative number, and no more than can be
counted. -/
def requested (count : Int) : Except Refusal Nat :=
  if isIndexSized count then .ok count.toNat else .error .countTooLarge

/-- Registers that are all zero. -/
def fresh (count : Nat) : Registers := { values := List.replicate count 0 }

def count (r : Registers) : Nat := r.values.length

/-- Whether a number names a register. -/
def isValid (r : Registers) (i : Int) : Bool := 0 ≤ i && i < r.count

/-- The word in a register; zero where there is no such register. -/
def get (r : Registers) (i : Nat) : Int := r.values.getD i 0

/-- A register written, wrapping the value. -/
def set (r : Registers) (i : Nat) (v : Int) : Registers :=
  { r with values := r.values.set i (Word.wrap v) }

/-- The flags set from a result. -/
def describe (r : Registers) (v : Int) : Registers := { r with flags := Flags.ofResult v }

/-- The word in the register at a signed position. -/
def getAt (r : Registers) (i : Int) : Except Refusal Int :=
  match place? r.count i with
  | some n => .ok (r.get n)
  | none => .error (refusePosition i .noRegister)

/-- The register at a signed position written. -/
def setAt (r : Registers) (i v : Int) : Except Refusal Registers :=
  match place? r.count i with
  | some n => .ok (r.set n v)
  | none => .error (refusePosition i .noRegisterToWrite)

/-- A one-line summary. -/
def summary (r : Registers) : String :=
  "RegisterFile([" ++ ", ".intercalate (r.values.map toString) ++ "], flags=" ++ r.flags.summary
    ++ ")"

@[simp] theorem count_fresh (n : Nat) : (fresh n).count = n := by
  simp [fresh, count]

@[simp] theorem count_set (r : Registers) (i : Nat) (v : Int) : (r.set i v).count = r.count := by
  simp [set, count]

@[simp] theorem count_describe (r : Registers) (v : Int) : (r.describe v).count = r.count := rfl

@[simp] theorem get_describe (r : Registers) (v : Int) (i : Nat) :
    (r.describe v).get i = r.get i := rfl

@[simp] theorem get_set_self (r : Registers) {i : Nat} (h : i < r.count) (v : Int) :
    (r.set i v).get i = Word.wrap v := by
  unfold count at h
  simp [get, set, h]

@[simp] theorem get_set_of_ne (r : Registers) {i j : Nat} (h : i ≠ j) (v : Int) :
    (r.set i v).get j = r.get j := by
  simp [get, set, List.getElem?_set_ne h]

end Registers

end WordMachine

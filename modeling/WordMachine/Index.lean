import WordMachine.Failure

/-!
# Signed positions and counts

A position in a sequence counts from the front when it is not negative and from the back when it
is: the last element is at minus one. Positions and counts are numbers of 64 bits with a sign; one
that is not is refused as such, before it is compared with any length.
-/

namespace WordMachine

/-- The first number too large for a position or a count. -/
def indexLimit : Nat := 0x8000000000000000

/-- Whether a number can be a position or a count. -/
def isIndexSized (i : Int) : Bool := -indexLimit ≤ i && i < indexLimit

/-- The refusal of a position at which nothing is found. -/
def refusePosition (i : Int) (absent : Refusal) : Refusal :=
  if isIndexSized i then absent else .positionTooLarge

/-- The place from the front that a signed position means in a sequence of the given length. -/
def place? (length : Nat) (i : Int) : Option Nat :=
  let j := if i < 0 then i + length else i
  if 0 ≤ j ∧ j < length then some j.toNat else none

theorem place?_natCast {length n : Nat} (h : n < length) : place? length n = some n := by
  simp only [place?, Option.ite_none_right_eq_some, Option.some.injEq]
  split <;> omega

theorem place?_natCast_of_le {length n : Nat} (h : length ≤ n) : place? length n = none := by
  simp only [place?, ite_eq_right_iff, reduceCtorEq, imp_false]
  split <;> omega

end WordMachine

import WordMachine.Failure

/-!
# Labels and their table

A table lists labels in the order in which they are defined. A name is defined once: a second
definition is an error that names the line of the first.
-/

namespace WordMachine

structure Label where
  name : String
  line : Int
  address : Int
  deriving DecidableEq, Repr

/-- Whether a name is made of ASCII letters and digits, at least one. -/
def isLabelName (name : String) : Bool :=
  !name.toList.isEmpty && name.toList.all Char.isAlphanum

structure Symbols where
  labels : List Label := []
  deriving DecidableEq, Repr

namespace Symbols

def find? (t : Symbols) (name : String) : Option Label := t.labels.find? (·.name == name)

def contains (t : Symbols) (name : String) : Bool := (t.find? name).isSome

def addressOf? (t : Symbols) (name : String) : Option Int := (t.find? name).map Label.address

/-- A label added at the end of the table. -/
def define (t : Symbols) (l : Label) : Except Diagnostic Symbols :=
  match t.find? l.name with
  | some first => .error ⟨.duplicateLabel l.name (some (first.line + 1)), some (l.line + 1)⟩
  | none => .ok ⟨t.labels ++ [l]⟩

end Symbols

end WordMachine

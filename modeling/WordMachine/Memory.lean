import WordMachine.Failure
import WordMachine.Index
import WordMachine.Word

/-!
# The memory image

Memory is a row of cells. A cell holds a byte and tells whether it belongs to data or keeps room
for an instruction. The image grows while a program is laid out; afterwards words are read and
written in place, four cells at a time, and a written cell belongs to data from then on.
-/

namespace WordMachine

/-- What a cell is for. -/
inductive CellKind where
  | data
  | code
  deriving DecidableEq, Repr

structure Cell where
  value : UInt8
  kind : CellKind
  deriving DecidableEq, Repr

def Cell.isData (c : Cell) : Bool := c.kind == .data

/-- A cell of an instruction; it holds no value of its own. -/
def Cell.room : Cell := ⟨0, .code⟩

/-- The data cells of a word. -/
def Cell.ofWord (v : Int) : List Cell := (Word.encode v).map (⟨·, .data⟩)

structure Memory where
  cells : Array Cell := #[]
  deriving DecidableEq, Repr

namespace Memory

def size (m : Memory) : Nat := m.cells.size

def values (m : Memory) : List UInt8 := m.cells.toList.map Cell.value

def kinds (m : Memory) : List CellKind := m.cells.toList.map Cell.kind

/-- The cell at a signed position. -/
def cell (m : Memory) (i : Int) : Except Refusal Cell :=
  match (place? m.size i).bind (m.cells[·]?) with
  | some c => .ok c
  | none => .error (refusePosition i .noCell)

/-! ## Growth -/

/-- Cells added at the end. -/
def append (m : Memory) (cells : List Cell) : Memory := ⟨m.cells ++ cells.toArray⟩

/-- Words added at the end as data. -/
def appendWords (m : Memory) (values : List Int) : Memory := m.append (values.flatMap Cell.ofWord)

/-- The most cells that can be asked for at once: a count less the room for their own header. -/
def maxRoom : Nat := indexLimit - 34

/-- Copies of a cell added at the end; a number of them that is no count, negative or too large is
refused. -/
def reserve (m : Memory) (size : Int) (c : Cell) : Except Refusal Memory :=
  if !isIndexSized size then .error .countTooLarge
  else if size < 0 then .error .negativeSize
  else if maxRoom < size then .error .roomTooLarge
  else .ok (m.append (List.replicate size.toNat c))

/-! ## Words -/

/-- Whether a whole word lies at an address. -/
def Covers (m : Memory) (address : Int) : Prop := 0 ≤ address ∧ address + Word.bytes ≤ m.size

instance (m : Memory) (address : Int) : Decidable (m.Covers address) :=
  inferInstanceAs (Decidable (_ ∧ _))

/-- The failure of an access outside the image. -/
def outside (m : Memory) (address : Int) (line : Option Int) : Failure :=
  .report ⟨.memoryAccess address m.size, line⟩

/-- The four bytes at a place. -/
def bytesAt (m : Memory) (place : Nat) : List UInt8 :=
  (m.cells.extract place (place + Word.bytes)).toList.map Cell.value

/-- The word at an address. -/
def readWord (m : Memory) (address : Int) (line : Option Int) : Except Failure Int :=
  if m.Covers address then .ok (Word.decode (m.bytesAt address.toNat))
  else .error (m.outside address line)

/-- Cells laid over those from a place on. -/
def overwrite (cells : Array Cell) : Nat → List Cell → Array Cell
  | _, [] => cells
  | place, c :: rest => overwrite (cells.setIfInBounds place c) (place + 1) rest

/-- A word written at an address as data. -/
def writeWord (m : Memory) (address value : Int) (line : Option Int) : Except Failure Memory :=
  if m.Covers address then .ok ⟨overwrite m.cells address.toNat (Cell.ofWord value)⟩
  else .error (m.outside address line)

theorem outside_of_isWritable {m : Memory} {address : Int}
    (h : (Cause.memoryAccess address m.size).isWritable = true) (line : Option Int) :
    m.outside address line = .diagnostic ⟨.memoryAccess address m.size, line⟩ :=
  if_pos h

theorem outside_of_not_isWritable {m : Memory} {address : Int}
    (h : (Cause.memoryAccess address m.size).isWritable = false) (line : Option Int) :
    m.outside address line = .refusal .numberTooLong :=
  if_neg (by simp [h])

/-- A one-line summary. -/
def summary (m : Memory) : String := "MemoryImage(" ++ toString m.size ++ " bytes)"

@[simp] theorem length_ofWord (v : Int) : (Cell.ofWord v).length = 4 := by
  simp [Cell.ofWord]

@[simp] theorem size_append (m : Memory) (cells : List Cell) :
    (m.append cells).size = m.size + cells.length := by
  simp [append, size]

@[simp] theorem toList_append (m : Memory) (cells : List Cell) :
    (m.append cells).cells.toList = m.cells.toList ++ cells := by
  simp [append]

@[simp] theorem size_overwrite (cells : Array Cell) (place : Nat) (new : List Cell) :
    (overwrite cells place new).size = cells.size := by
  induction new generalizing cells place with
  | nil => rfl
  | cons c rest ih => simp [overwrite, ih]

/-- Writing changes no size. -/
theorem size_writeWord {m m' : Memory} {address value : Int} {line : Option Int}
    (h : m.writeWord address value line = .ok m') : m'.size = m.size := by
  unfold writeWord at h
  split at h
  · cases h
    simp [size]
  · cases h

end Memory

end WordMachine

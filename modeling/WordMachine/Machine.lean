import WordMachine.Instruction
import WordMachine.Layout
import WordMachine.Registers

/-!
# The machine

A machine holds a program with its labels, registers and memory, the position of the next
statement, given by its place and its address, and the number of steps taken. Executing a statement
either yields the machine after it or an error; nothing is written before everything has been
checked, so an error leaves no trace but the step counted.
-/

namespace WordMachine

structure Machine where
  program : List Statement
  symbols : Symbols := {}
  registers : Registers
  memory : Memory := {}
  line : Int := 0
  address : Int := 0
  steps : Nat := 0
  deriving DecidableEq, Repr

/-- A register written and described by the flags. -/
def Registers.assign (r : Registers) (i : Nat) (v : Int) : Registers :=
  let r := r.set i v
  r.describe (r.get i)

/-- An operation between two registers. Comparison only sets the flags, from the exact
difference. -/
def Registers.operate (r : Registers) (op : RegisterOp) (i j : Nat) : Registers :=
  match op with
  | .arith op => r.assign i (op.apply (r.get i) (r.get j))
  | .compare => r.describe (r.get i - r.get j)
  | .load => r.assign i (r.get j)

/-- Whether a jump is taken under the given flags. -/
def Condition.holds : Condition → Flags → Bool
  | .always, _ => true
  | .notNegative, f => !f.sign
  | .zero, f => f.zero
  | .negative, f => f.sign

namespace Machine

/-- Whether the position is past the last statement. -/
def atEnd (m : Machine) : Bool := m.line ≥ m.program.length

/-- The statement at the position, which like every position may count from the back. -/
def current? (m : Machine) : Option Statement :=
  (place? m.program.length m.line).bind (m.program[·]?)

/-- One more step counted. -/
def tick (m : Machine) : Machine := { m with steps := m.steps + 1 }

/-- The position moved past a statement. -/
def advance (m : Machine) (s : Statement) : Machine :=
  { m with line := m.line + 1, address := m.address + s.size }

/-- The address that an address expression means. -/
def resolve (m : Machine) (a : Address) (line : Int) : Except Failure Int :=
  match a with
  | .absolute n => .ok n
  | .indirect r => .ok (m.registers.get r)
  | .label name =>
    match m.symbols.addressOf? name with
    | some address => .ok address
    | none => .error (.atLine line (.undefinedLabel name))

/-- An operation between a register and an address. Comparison with memory reads the word, but the
flags it leaves describe the register alone. -/
def access (m : Machine) (op : MemoryOp) (i : Nat) (address line : Int) :
    Except Failure Machine :=
  match op with
  | .arith op => do
    let word ← m.memory.readWord address line
    return { m with registers := m.registers.assign i (op.apply (m.registers.get i) word) }
  | .compare => do
    let _ ← m.memory.readWord address line
    return { m with registers := m.registers.describe (m.registers.get i) }
  | .load => do
    let word ← m.memory.readWord address line
    return { m with registers := m.registers.assign i word }
  | .store => do
    let memory ← m.memory.writeWord address (m.registers.get i) line
    return { m with memory, registers := m.registers.describe (m.registers.get i) }
  | .loadAddress => return { m with registers := m.registers.assign i address }

/-- The effect of an instruction that stands in a statement. A jump has to lead to a statement
whether it is taken or not. -/
def perform (m : Machine) (s : Statement) : Instruction → Except Failure Machine
  | .register op i j => return { m with registers := m.registers.operate op i j }.advance s
  | .memory op i a => do
    let address ← m.resolve a s.line
    let m ← m.access op i address s.line
    return m.advance s
  | .jump when a => do
    let address ← m.resolve a s.line
    let place ← (jumpTarget m.program address s.line).mapError .diagnostic
    if when.holds m.registers.flags then return { m with line := place, address }
    else return m.advance s
  | .data => return m.advance s

/-- Decodes a line of code against the registers of the machine. -/
def decode (m : Machine) (s : Statement) (l : CodeLine) : Except Failure Instruction :=
  match l.mnemonic? with
  | none => .error (.atLine s.line (.invalidInstruction l.name))
  | some mnemonic => Instruction.decode m.registers.count mnemonic l.operands s.line

/-- Executes a statement. A line without code is passed over. -/
def execute (m : Machine) (s : Statement) : Except Failure Machine :=
  match CodeLine.parse? s.text with
  | none => .ok (m.advance s)
  | some l => do
    let i ← m.decode s l
    m.perform s i

/-- One step. Past the end it is only counted. -/
def step (m : Machine) : Except Failure Machine :=
  if m.atEnd then .ok m.tick
  else match m.current? with
    | none => .error (.refusal (refusePosition m.line .noStatement))
    | some s => (m.execute s).map tick

/-- The machine after a step, whether the step succeeded or not. -/
def next (m : Machine) : Machine :=
  match m.step with
  | .ok m' => m'
  | .error _ => m.tick

/-- The statement that a step executes: none past the end, none when it fails. -/
def finished? (m : Machine) : Option Statement :=
  if m.atEnd then none
  else match m.step with
    | .ok _ => m.current?
    | .error _ => none

@[simp] theorem steps_advance (m : Machine) (s : Statement) : (m.advance s).steps = m.steps := rfl

theorem steps_access {m m' : Machine} {op : MemoryOp} {i : Nat} {address line : Int}
    (h : m.access op i address line = .ok m') : m'.steps = m.steps := by
  unfold access at h
  split at h
  · rcases hr : m.memory.readWord address line with e | w <;> rw [hr] at h <;> cases h
    rfl
  · rcases hr : m.memory.readWord address line with e | w <;> rw [hr] at h <;> cases h
    rfl
  · rcases hr : m.memory.readWord address line with e | w <;> rw [hr] at h <;> cases h
    rfl
  · rcases hr : m.memory.writeWord address (m.registers.get i) line with e | w <;> rw [hr] at h <;>
      cases h
    rfl
  · cases h
    rfl

theorem steps_perform {m m' : Machine} {s : Statement} {i : Instruction}
    (h : m.perform s i = .ok m') : m'.steps = m.steps := by
  unfold perform at h
  split at h
  · cases h
    rfl
  · rename_i op i a
    rcases hr : m.resolve a s.line with e | address <;> rw [hr] at h
    · cases h
    · simp only [bind, Except.bind] at h
      rcases ha : m.access op i address s.line with e | m₁ <;> rw [ha] at h <;> cases h
      exact (steps_advance _ _).trans (steps_access ha)
  · rename_i when a
    rcases hr : m.resolve a s.line with e | address <;> rw [hr] at h
    · cases h
    · simp only [bind, Except.bind] at h
      rcases hj : jumpTarget m.program address s.line with e | place <;> rw [hj] at h
      · cases h
      · change (if when.holds m.registers.flags then .ok { m with line := place, address }
          else .ok (m.advance s)) = Except.ok m' at h
        split at h <;> cases h <;> rfl
  · cases h
    rfl

theorem steps_execute {m m' : Machine} {s : Statement} (h : m.execute s = .ok m') :
    m'.steps = m.steps := by
  unfold execute at h
  split at h
  · cases h
    rfl
  · rename_i l _
    rcases hd : m.decode s l with e | i <;> rw [hd] at h
    · cases h
    · simp only [bind, Except.bind] at h
      exact steps_perform h

/-- Every step is counted once. -/
theorem steps_next (m : Machine) : m.next.steps = m.steps + 1 := by
  unfold next step
  split
  · rename_i m' h
    split at h
    · cases h
      rfl
    · split at h
      · cases h
      · rename_i s _
        rcases he : m.execute s with e | m₁ <;> rw [he] at h <;> cases h
        simp [tick, steps_execute he]
  · rfl

end Machine

end WordMachine

import WordMachine.Proofs.Settled

/-!
# Steps made of bare operations

Reading a register gives zero where there is none, and dividing by zero gives zero. A step can also
be made of bare operations, which do neither: registers and cells are found at signed positions or
not at all, an operation is looked up in a table that may not hold it, and zero divides nothing.
None of this is ever run into, because decoding lets only registers through that exist, the memory
that a word takes is looked at first, and a zero divisor is met before the division
(`Bare.step_eq`). After a layout every line names a known instruction and the position is always on
a line, so a step fails only for its operands (`failure_after_layout`).
-/

namespace WordMachine

open Text

/-- What a bare operation runs into. -/
inductive Lapse where
  | failure (f : Failure)
  | noOperation (m : Mnemonic)
  | zeroDivisor
  deriving DecidableEq, Repr

namespace Bare

def get (r : Registers) (i : Int) : Except Lapse Int :=
  (r.getAt i).mapError fun e => .failure (.refusal e)

def set (r : Registers) (i v : Int) : Except Lapse Registers :=
  (r.setAt i v).mapError fun e => .failure (.refusal e)

/-- The flags set from what a register holds. -/
def describe (r : Registers) (i : Int) : Except Lapse Registers := do
  let v ← get r i
  return r.describe v

def assign (r : Registers) (i v : Int) : Except Lapse Registers := do
  let r ← set r i v
  describe r i

/-- The table of operations. -/
def operation? : Mnemonic → Option Arith
  | .register (.arith op) => some op
  | .memory (.arith op) => some op
  | _ => none

def calculate : Arith → Int → Int → Except Lapse Int
  | .div, x, y => if y = 0 then .error .zeroDivisor else .ok (x.fdiv y)
  | .add, x, y => .ok (x + y)
  | .sub, x, y => .ok (x - y)
  | .mul, x, y => .ok (x * y)

def combine (m : Mnemonic) (x y : Int) : Except Lapse Int :=
  if (m = .register (.arith .div) ∨ m = .memory (.arith .div)) ∧ y = 0 then .ok 0
  else match operation? m with
    | none => .error (.noOperation m)
    | some op => calculate op x y

/-- What is neither a comparison nor a load is looked up in the table. -/
def operate (r : Registers) (op : RegisterOp) (i j : Int) : Except Lapse Registers := do
  match op with
  | .compare =>
    let x ← get r i
    let y ← get r j
    return r.describe (x - y)
  | .load =>
    let y ← get r j
    assign r i y
  | op =>
    let x ← get r i
    let y ← get r j
    let v ← combine (.register op) x y
    assign r i v

/-- The four cells from an address on, found one by one. -/
def cellsAt (m : Memory) (address : Int) : Except Lapse (List Cell) :=
  [0, 1, 2, 3].mapM fun k => (m.cell (address + k)).mapError fun e => .failure (.refusal e)

def readWord (m : Memory) (address line : Int) : Except Lapse Int :=
  if m.Covers address then do
    let cells ← cellsAt m address
    return Word.decode (cells.map Cell.value)
  else .error (.failure (m.outside address line))

def writeWord (m : Memory) (address v line : Int) : Except Lapse Memory :=
  if m.Covers address then do
    let _ ← cellsAt m address
    return ⟨Memory.overwrite m.cells address.toNat (Cell.ofWord v)⟩
  else .error (.failure (m.outside address line))

def access (m : Machine) (op : MemoryOp) (i address line : Int) : Except Lapse Machine := do
  match op with
  | .loadAddress => return { m with registers := ← assign m.registers i address }
  | .store =>
    let v ← get m.registers i
    let memory ← writeWord m.memory address v line
    return { m with memory, registers := ← describe m.registers i }
  | .load =>
    let word ← readWord m.memory address line
    return { m with registers := ← assign m.registers i word }
  | .compare =>
    let v ← get m.registers i
    let word ← readWord m.memory address line
    return { m with registers := ← describe (m.registers.describe (v - word)) i }
  | op =>
    let word ← readWord m.memory address line
    let x ← get m.registers i
    let v ← combine (.memory op) x word
    return { m with registers := ← assign m.registers i v }

def resolve (m : Machine) (a : Address) (line : Int) : Except Lapse Int :=
  match a with
  | .indirect r => get m.registers r
  | a => (m.resolve a line).mapError .failure

def perform (m : Machine) (s : Statement) : Instruction → Except Lapse Machine
  | .register op i j => do
    let registers ← operate m.registers op i j
    return { m with registers }.advance s
  | .memory op i a => do
    let address ← resolve m a s.line
    let m ← access m op i address s.line
    return m.advance s
  | .jump when a => do
    let address ← resolve m a s.line
    let place ← (jumpTarget m.program address s.line).mapError fun d => .failure (.diagnostic d)
    if when.holds m.registers.flags then return { m with line := place, address }
    else return m.advance s
  | .data => return m.advance s

def execute (m : Machine) (s : Statement) : Except Lapse Machine :=
  match CodeLine.parse? s.text with
  | none => .ok (m.advance s)
  | some l => do
    let i ← (m.decode s l).mapError .failure
    perform m s i

def step (m : Machine) : Except Lapse Machine :=
  if m.atEnd then .ok m.tick
  else match m.current? with
    | none => .error (.failure (.refusal (refusePosition m.line .noStatement)))
    | some s =>
      if m.announces s then (execute m s).map Machine.tick
      else .error (.failure (.refusal .numberTooLong))

section Registers

variable {r : Registers} {i j : Nat}

theorem get_eq (hi : i < r.count) : get r i = .ok (r.get i) := by
  simp [get, Registers.getAt, place?_natCast hi]

theorem set_eq (hi : i < r.count) (v : Int) : set r i v = .ok (r.set i v) := by
  simp [set, Registers.setAt, place?_natCast hi]

theorem describe_eq (hi : i < r.count) : describe r i = .ok (r.describe (r.get i)) := by
  simp only [describe, get_eq hi, bind, Except.bind]
  rfl

theorem assign_eq (hi : i < r.count) (v : Int) : assign r i v = .ok (r.assign i v) := by
  have hi' : i < (r.set i v).count := by simpa using hi
  simp only [assign, set_eq hi, bind, Except.bind, describe_eq hi']
  rfl

theorem combine_arith {m : Mnemonic} {op : Arith} (h : operation? m = some op) (x y : Int) :
    combine m x y = .ok (op.apply x y) := by
  unfold combine
  split_ifs with hzero
  · obtain ⟨hm, rfl⟩ := hzero
    have hop : op = .div := by rcases hm with rfl | rfl <;> cases h <;> rfl
    simp [hop, Arith.apply]
  · simp only [h]
    cases op with
    | div =>
      have hy : y ≠ 0 := by
        intro hy
        refine hzero ⟨?_, hy⟩
        unfold operation? at h
        split at h <;> simp at h <;> simp [h]
      simp [calculate, hy, Arith.apply]
    | add => rfl
    | sub => rfl
    | mul => rfl

theorem operate_eq (hi : i < r.count) (hj : j < r.count) (op : RegisterOp) :
    operate r op i j = .ok (r.operate op i j) := by
  cases op with
  | arith op =>
    simp only [operate, get_eq hi, get_eq hj, bind, Except.bind,
      combine_arith (m := .register (.arith op)) rfl, assign_eq hi]
    rfl
  | compare =>
    simp only [operate, get_eq hi, get_eq hj, bind, Except.bind]
    rfl
  | load =>
    simp only [operate, get_eq hj, bind, Except.bind, assign_eq hi]
    rfl

end Registers

section Memory

variable {m : Memory} {address : Int}

theorem cell_eq {n : Nat} (hn : n < m.cells.size) : m.cell n = .ok m.cells[n] := by
  simp [Memory.cell, Memory.size, place?_natCast hn, hn]

/-- Where a whole word lies, its cells are there. -/
theorem cellsAt_eq (h : m.Covers address) :
    cellsAt m address
      = .ok (m.cells.extract address.toNat (address.toNat + Word.bytes)).toList := by
  obtain ⟨n, rfl⟩ := Int.eq_ofNat_of_zero_le h.1
  have hn : n + 4 ≤ m.cells.size := by
    have := h.2
    simp only [Word.bytes, Memory.size] at this
    omega
  have hcell : ∀ k : Nat, (hk : k < 4) → m.cell ((n : Int) + k) = .ok (m.cells[n + k]) := by
    intro k hk
    exact_mod_cast cell_eq (m := m) (n := n + k) (by omega)
  have hlist : (m.cells.extract n (n + Word.bytes)).toList
      = [m.cells[n], m.cells[n + 1], m.cells[n + 2], m.cells[n + 3]] := by
    apply List.ext_getElem
    · simp [Word.bytes]
      omega
    · intro k hk₁ hk₂
      simp only [List.length_cons, List.length_nil] at hk₂
      rcases k with _ | _ | _ | _ | k
      · simp
      · simp
      · simp
      · simp
      · omega
  have h₀ : m.cell ((n : Int) + 0) = .ok m.cells[n] := hcell 0 (by omega)
  have h₁ : m.cell ((n : Int) + 1) = .ok m.cells[n + 1] := hcell 1 (by omega)
  have h₂ : m.cell ((n : Int) + 2) = .ok m.cells[n + 2] := hcell 2 (by omega)
  have h₃ : m.cell ((n : Int) + 3) = .ok m.cells[n + 3] := hcell 3 (by omega)
  simp only [cellsAt, List.mapM_cons, List.mapM_nil, h₀, h₁, h₂, h₃, mapError_ok,
    Int.toNat_natCast, hlist]
  rfl

theorem readWord_eq (m : Memory) (address line : Int) :
    readWord m address line
      = (m.readWord address line).mapError .failure := by
  unfold readWord Memory.readWord
  split_ifs with h
  · simp only [cellsAt_eq h, bind, Except.bind]
    rfl
  · rfl

theorem writeWord_eq (m : Memory) (address v line : Int) :
    writeWord m address v line
      = (m.writeWord address v line).mapError .failure := by
  unfold writeWord Memory.writeWord
  split_ifs with h
  · simp only [cellsAt_eq h, bind, Except.bind]
    rfl
  · rfl

end Memory

section Machine

variable {m : Machine} {s : Statement}

theorem access_eq {i : Nat} (hi : i < m.registers.count) (op : MemoryOp) (address line : Int) :
    access m op i address line = (m.access op i address line).mapError .failure := by
  cases op with
  | arith op =>
    simp only [access, Machine.access, readWord_eq]
    rcases m.memory.readWord address line with d | word
    · rfl
    · simp only [mapError_ok, bind, Except.bind, get_eq hi,
        combine_arith (m := .memory (.arith op)) rfl, assign_eq hi]
      rfl
  | compare =>
    simp only [access, Machine.access, readWord_eq, get_eq hi]
    rcases m.memory.readWord address line with d | word
    · rfl
    · have hi' : i < (m.registers.describe (m.registers.get i - word)).count := hi
      simp only [mapError_ok, bind, Except.bind, describe_eq hi']
      rfl
  | load =>
    simp only [access, Machine.access, readWord_eq]
    rcases m.memory.readWord address line with d | word
    · rfl
    · simp only [mapError_ok, bind, Except.bind, assign_eq hi]
      rfl
  | store =>
    simp only [access, Machine.access, writeWord_eq, get_eq hi]
    rcases hw : m.memory.writeWord address (m.registers.get i) line with d | memory
    · simp only [bind, Except.bind, hw]
      rfl
    · simp only [mapError_ok, bind, Except.bind, hw, describe_eq hi]
      rfl
  | loadAddress =>
    simp only [access, Machine.access, bind, Except.bind, assign_eq hi]
    rfl

theorem resolve_eq {a : Address} (ha : a.InBounds m.registers.count) (line : Int) :
    resolve m a line = (m.resolve a line).mapError .failure := by
  cases a with
  | absolute n => rfl
  | indirect r => exact get_eq ha
  | label name => rfl

theorem perform_eq {i : Instruction} (hi : i.InBounds m.registers.count) :
    perform m s i = (m.perform s i).mapError .failure := by
  cases i with
  | register op i j =>
    simp only [perform, Machine.perform, operate_eq hi.1 hi.2, bind, Except.bind]
    rfl
  | memory op i a =>
    simp only [perform, Machine.perform, resolve_eq hi.2]
    rcases m.resolve a s.line with d | address
    · rfl
    · simp only [mapError_ok, bind, Except.bind, access_eq hi.1]
      rcases m.access op i address s.line with d | m₁ <;> rfl
  | jump when a =>
    simp only [perform, Machine.perform, resolve_eq (a := a) hi]
    rcases m.resolve a s.line with d | address
    · rfl
    · simp only [mapError_ok, bind, Except.bind]
      rcases jumpTarget m.program address s.line with d | place
      · rfl
      · simp only [mapError_ok]
        split_ifs <;> rfl
  | data => rfl

theorem execute_eq (m : Machine) (s : Statement) :
    execute m s = (m.execute s).mapError .failure := by
  unfold execute Machine.execute
  rcases CodeLine.parse? s.text with _ | l
  · rfl
  · rcases hd : m.decode s l with f | i
    · simp only [hd]
      rfl
    · simp only [hd, mapError_ok, bind, Except.bind, perform_eq (Machine.decode_inBounds hd)]

theorem step_eq (m : Machine) : step m = m.attempt.mapError .failure := by
  unfold step Machine.attempt Machine.canAnnounce Machine.step
  by_cases he : m.atEnd = true
  · simp [he]
  · rcases hc : m.current? with _ | s
    · simp [he]
    · by_cases ha : m.announces s = true
      · simp only [he, ha, execute_eq]
        rcases m.execute s with f | m₁ <;> simp [Except.map, ha]
      · simp [he, ha]

end Machine

end Bare

namespace Engine

variable {source : String} {l : Layout}

theorem laidOut_afterAll {e : Engine} (h : e.laidOut = true) (calls : List Call) :
    (e.afterAll calls).laidOut = true :=
  afterAll_induct (P := fun e => e.laidOut = true)
    (fun _ _ _ hp => by
      obtain ⟨l, -, rfl⟩ := prepare_ok hp
      rfl)
    (fun _ _ he _ _ => he) (fun _ he _ => he) calls h

/-- After a layout a program stays laid out, whatever is asked of the engine. -/
theorem laidOut_afterAll_prepare (h : Layout.build (statements source) = .ok l) (config : Config)
    (calls : List Call) : ((load config source).afterAll (.prepare :: calls)).laidOut = true := by
  rw [afterAll_cons]
  exact laidOut_afterAll (by rw [after_prepare (e := load config source) h]) calls

/-- When a step fails after a layout, the operands of the next line are at fault and the error is
charged to that line, or one of them has too many digits; a text too long to be counted aside, whose
line numbers may be too long to be announced. A step made of bare operations does the same, and runs
into nothing else. -/
theorem failure_after_layout (h : Layout.build (statements source) = .ok l) (config : Config)
    (calls : List Call) :
    let e := (load config source).afterAll (.prepare :: calls)
    (∀ m, Bare.step e.machine = .ok m → e.step.failure = none ∧ e.step.engine.machine = m)
      ∧ (∀ lapse, Bare.step e.machine = .error lapse →
        ∃ f, lapse = .failure f ∧ e.step.failure = some f)
      ∧ ∀ f, e.step.failure = some f →
        (∃ cause, f = .atLine (e.machine.line + 1) cause ∧ cause.isOperational = true)
          ∨ (∃ s code, e.machine.current? = some s ∧ CodeLine.parse? s.text = some code
            ∧ Overlong code.operands f)
          ∨ f = .refusal .numberTooLong ∧ indexLimit ≤ source.length := by
  intro e
  have hlaid : e.laidOut = true := laidOut_afterAll_prepare h config calls
  have hm : e.machine.Settled l := settled_afterAll h config (.prepare :: calls) hlaid
  refine ⟨fun m hm => ?_, fun lapse hlapse => ?_, fun f hf => ?_⟩
  · rw [Bare.step_eq, mapError_eq_ok] at hm
    rw [step_of_attempt_ok hlaid hm]
    exact ⟨rfl, rfl⟩
  · rw [Bare.step_eq] at hlapse
    rcases ha : e.machine.attempt with f | m <;> rw [ha] at hlapse <;> cases hlapse
    exact ⟨f, rfl, by rw [step_of_attempt_error hlaid ha]⟩
  · have ha : e.machine.attempt = .error f := by
      rcases ha : e.machine.attempt with g | m
      · rw [step_of_attempt_error hlaid ha] at hf
        cases hf
        rfl
      · rw [step_of_attempt_ok hlaid ha] at hf
        cases hf
    have hstep : e.machine.step = .error f
        ∨ f = .refusal .numberTooLong ∧ indexLimit ≤ source.length := by
      rcases Nat.lt_or_ge source.length indexLimit with hlen | hlen
      · exact .inl (by rw [← Machine.attempt_eq_step h hlen hm.positioned, ha])
      · unfold Machine.attempt at ha
        split_ifs at ha
        · exact .inl ha
        · cases ha
          exact .inr ⟨rfl, hlen⟩
    rcases hstep with hstep | hlong
    · rcases hm.step_error h hstep with hcause | hlong
      · exact .inl hcause
      · exact .inr (.inl hlong)
    · exact .inr (.inr hlong)

/-- A division by zero goes through; a jump into the middle of a statement does not. -/
theorem failure_after_layout_jump :
    ∃ e, e = (load ⟨1000, 3⟩ "Z DC 0\nLA 1,9\nD 2,Z\nJ 0(1)").afterAll
        [.prepare, .step, .step, .step]
      ∧ e.step.failure = some (.atLine 4 (.invalidJumpTarget 9))
      ∧ ∃ cause, Failure.atLine 4 (.invalidJumpTarget 9) = .atLine (e.machine.line + 1) cause
        ∧ cause.isOperational = true := by
  have hbuild : (Layout.build (statements "Z DC 0\nLA 1,9\nD 2,Z\nJ 0(1)")).map Layout.size
      = .ok 16 := by
    decide +kernel
  obtain ⟨l, hl, -⟩ := map_eq_ok.1 hbuild
  have hafter := failure_after_layout hl ⟨1000, 3⟩ [.step, .step, .step]
  have hf : ((load ⟨1000, 3⟩ "Z DC 0\nLA 1,9\nD 2,Z\nJ 0(1)").afterAll
      [.prepare, .step, .step, .step]).step.failure = some (.atLine 4 (.invalidJumpTarget 9)) := by
    decide +kernel
  refine ⟨_, rfl, hf, ?_⟩
  obtain hcause | ⟨s, code, -, -, token, -, digits, -, -, hlong⟩ | ⟨hlong, -⟩ := hafter.2.2 _ hf
  · exact hcause
  · cases hlong
  · cases hlong

end Engine

end WordMachine
